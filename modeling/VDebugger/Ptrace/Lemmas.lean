import VDebugger.Ptrace

namespace VDebugger

open Machine

section

variable {κ : Type} (env : Env κ) (s : Debugger κ)

-- A request is granted, or the kernel refuses one of this run.
theorem ptrace_cases (req : Request) :
    (∃ log, ptrace env req s = (.ok (), { s with log })) ∨
      (∃ n, env.fault n = true) ∧
        ∃ log, ptrace env req s = (.error Errors.PTRACE_ERROR.code, { s with log }) := by
  cases h : env.fault s.log.length with
  | false =>
      refine .inl ⟨(req, true) :: s.log, ?_⟩
      simp only [ptrace, request, Debugger.note, Action.bind_apply, h]
      rfl
  | true =>
      refine .inr ⟨⟨_, h⟩, (req, false) :: s.log, ?_⟩
      simp only [ptrace, request, Debugger.note, Action.bind_apply, h]
      rfl

theorem ptracePeekData_cases (addr : UWORD) :
    (∃ log, ptracePeekData env addr s =
        (.ok (readWord s.debugee.mem addr.toNat), { s with log })) ∨
      (∃ n, env.fault n = true) ∧
        ∃ log, ptracePeekData env addr s = (.error Errors.PTRACE_ERROR.code, { s with log }) := by
  rcases ptrace_cases env s (.peekData addr) with ⟨log, h⟩ | ⟨hf, log, h⟩
  · exact .inl ⟨log, Action.bind_of_ok h _⟩
  · exact .inr ⟨hf, log, Action.bind_of_error h _⟩

theorem ptracePokeData_cases (site : PokeSite) (addr data : UWORD) :
    (∃ log, ptracePokeData env site addr data s =
        (.ok (), { s.withMem (writeWord s.debugee.mem addr.toNat data) with log })) ∨
      (∃ n, env.fault n = true) ∧
        ∃ log, ptracePokeData env site addr data s =
          (.error Errors.PTRACE_ERROR.code, { s with log }) := by
  rcases ptrace_cases env s (.pokeData site addr data) with ⟨log, h⟩ | ⟨hf, log, h⟩
  · exact .inl ⟨log, Action.bind_of_ok h _⟩
  · exact .inr ⟨hf, log, Action.bind_of_error h _⟩

theorem getRegsStruct_cases :
    (∃ log, getRegsStruct env s = (.ok s.debugee.regs, { s with log })) ∨
      (∃ n, env.fault n = true) ∧
        ∃ log, getRegsStruct env s = (.error Errors.PTRACE_ERROR.code, { s with log }) := by
  rcases ptrace_cases env s .getRegs with ⟨log, h⟩ | ⟨hf, log, h⟩
  · exact .inl ⟨log, Action.bind_of_ok h _⟩
  · exact .inr ⟨hf, log, Action.bind_of_error h _⟩

theorem setRegsStruct_cases (regs : RegsStruct) :
    (∃ log, setRegsStruct env regs s = (.ok (), { s.withRegs regs with log })) ∨
      (∃ n, env.fault n = true) ∧
        ∃ log, setRegsStruct env regs s = (.error Errors.PTRACE_ERROR.code, { s with log }) := by
  rcases ptrace_cases env s .setRegs with ⟨log, h⟩ | ⟨hf, log, h⟩
  · exact .inl ⟨log, Action.bind_of_ok h _⟩
  · exact .inr ⟨hf, log, Action.bind_of_error h _⟩

end

section Frame

variable {κ : Type}

-- The parts of the state that only the breakpoint functions write, among them the bytes
-- that the debugee has not written itself.
structure Frame (s t : Debugger κ) : Prop where
  breakpoints : t.breakpoints = s.breakpoints
  loadAddress : t.loadAddress = s.loadAddress
  dwarfDbg : t.dwarfDbg = s.dwarfDbg
  written : ∀ a, t.written a = false → s.written a = false
  mem : ∀ a, t.written a = false → t.debugee.mem a = s.debugee.mem a

namespace Frame

theorem refl (s : Debugger κ) : Frame s s :=
  ⟨rfl, rfl, rfl, fun _ h => h, fun _ _ => rfl⟩

theorem trans (s t u : Debugger κ) (h : Frame s t) (h' : Frame t u) : Frame s u where
  breakpoints := h'.breakpoints.trans h.breakpoints
  loadAddress := h'.loadAddress.trans h.loadAddress
  dwarfDbg := h'.dwarfDbg.trans h.dwarfDbg
  written a ha := h.written a (h'.written a ha)
  mem a ha := (h'.mem a ha).trans (h.mem a (h'.written a ha))

theorem of_log (s : Debugger κ) (log : List (Request × Bool)) : Frame s { s with log } :=
  ⟨rfl, rfl, rfl, fun _ h => h, fun _ _ => rfl⟩

-- A run of the debugee writes where it writes.
theorem settle (s : Debugger κ) (p : Proc κ) (info : Stop) : Frame s (s.settle p info) := by
  refine ⟨rfl, rfl, rfl, fun a ha => ?_, fun a ha => ?_⟩ <;>
    simp only [Debugger.settle, Bool.or_eq_false_iff, decide_eq_false_iff_not, ne_eq,
      Decidable.not_not] at ha
  · exact ha.1
  · exact ha.2

end Frame

variable {env : Env κ}

theorem ptrace_frame (req : Request) : (ptrace env req).Keeps Frame := by
  intro s
  rcases ptrace_cases env s req with ⟨log, h⟩ | ⟨_, log, h⟩
  all_goals
    rw [h]
    exact Frame.of_log s log

theorem awaitStop_frame : (awaitStop env).Keeps Frame := by
  intro s
  unfold awaitStop
  split
  · exact Frame.refl s
  · exact Frame.settle s _ _
  · split
    · exact Frame.refl s
    · exact Frame.settle s _ _

theorem failIf_frame (c : Prop) [Decidable c] (res : Int) :
    (Action.failIf c res).Keeps (Frame (κ := κ)) :=
  fun s => Frame.refl s

theorem waitpid_frame : (waitpid env).Keeps Frame := by
  apply Action.Keeps.bind Frame.trans
  · exact fun s => Frame.of_log s _
  · intro granted
    cases granted
    · exact Frame.refl
    · exact awaitStop_frame

theorem waitForSignal_frame : (waitForSignal env).Keeps Frame := by
  apply Action.Keeps.bind Frame.trans waitpid_frame
  intro _
  exact Action.Keeps.bind Frame.trans Frame.refl fun t => failIf_frame _ _

theorem getRegsStruct_frame : (getRegsStruct env).Keeps Frame :=
  Action.Keeps.bind Frame.trans (ptrace_frame _) fun _ => Frame.refl

theorem setRegsStruct_frame (regs : RegsStruct) : (setRegsStruct env regs).Keeps Frame :=
  Action.Keeps.bind Frame.trans (ptrace_frame _) fun _ _ =>
    ⟨rfl, rfl, rfl, fun _ h => h, fun _ _ => rfl⟩

theorem handleSigtrap_frame (si_code : SiCode) : (handleSigtrap env si_code).Keeps Frame := by
  unfold handleSigtrap
  split
  · exact Action.Keeps.bind Frame.trans getRegsStruct_frame fun _ => setRegsStruct_frame _
  · exact Action.Keeps.bind Frame.trans getRegsStruct_frame fun _ => setRegsStruct_frame _
  · exact Frame.refl

theorem recordTrap_frame (si_code : SiCode) {handler : DebuggerM κ Unit}
    (h : handler.Keeps Frame) : (recordTrap env si_code handler).Keeps Frame := by
  intro s
  have hs := h s
  exact ⟨hs.breakpoints, hs.loadAddress, hs.dwarfDbg, hs.written, hs.mem⟩

theorem waitAndHandleSignal_frame : (waitAndHandleSignal env).Keeps Frame := by
  apply Action.Keeps.bind Frame.trans waitForSignal_frame
  intro _
  apply Action.Keeps.bind Frame.trans
  · exact Action.Keeps.bind Frame.trans (ptrace_frame _) fun _ => Frame.refl
  · intro info
    split
    · exact recordTrap_frame _ (handleSigtrap_frame _)
    · exact Frame.refl

theorem singleStep_frame : (singleStep env).Keeps Frame :=
  Action.Keeps.bind Frame.trans (ptrace_frame _) fun _ _ =>
    ⟨rfl, rfl, rfl, fun _ h => h, fun _ _ => rfl⟩

theorem debugContinue_frame : (debugContinue env).Keeps Frame :=
  Action.Keeps.bind Frame.trans (ptrace_frame _) fun _ _ =>
    ⟨rfl, rfl, rfl, fun _ h => h, fun _ _ => rfl⟩

end Frame

-- The kernel refuses one of the next two requests.
def Refused {κ : Type} (env : Env κ) (s : Debugger κ) : Prop :=
  env.fault s.log.length = true ∨ env.fault (s.log.length + 1) = true

section Granted

variable {κ : Type} {env : Env κ}

theorem ptrace_of_granted {s : Debugger κ} (h : env.fault s.log.length = false) (req : Request) :
    ptrace env req s = (.ok (), s.note req true) := by
  simp only [ptrace, request, Action.bind_apply, h]
  rfl

theorem ptrace_of_refused {s : Debugger κ} (h : env.fault s.log.length = true) (req : Request) :
    ptrace env req s = (.error Errors.PTRACE_ERROR.code, s.note req false) := by
  simp only [ptrace, request, Action.bind_apply, h]
  rfl

-- The calls that make one request, where it is granted and where it is not.
theorem getRegsStruct_of_granted {s : Debugger κ} (h : env.fault s.log.length = false) :
    getRegsStruct env s = (.ok s.debugee.regs, s.note .getRegs true) :=
  Action.bind_of_ok (ptrace_of_granted h _) _

theorem getRegsStruct_of_refused {s : Debugger κ} (h : env.fault s.log.length = true) :
    getRegsStruct env s = (.error Errors.PTRACE_ERROR.code, s.note .getRegs false) :=
  Action.bind_of_error (ptrace_of_refused h _) _

theorem ptracePeekData_of_granted {s : Debugger κ} (h : env.fault s.log.length = false)
    (addr : UWORD) :
    ptracePeekData env addr s =
      (.ok (readWord s.debugee.mem addr.toNat), s.note (.peekData addr) true) :=
  Action.bind_of_ok (ptrace_of_granted h _) _

theorem ptracePeekData_of_refused {s : Debugger κ} (h : env.fault s.log.length = true)
    (addr : UWORD) :
    ptracePeekData env addr s =
      (.error Errors.PTRACE_ERROR.code, s.note (.peekData addr) false) :=
  Action.bind_of_error (ptrace_of_refused h _) _

theorem ptracePokeData_of_granted {s : Debugger κ} (h : env.fault s.log.length = false)
    (site : PokeSite) (addr data : UWORD) :
    ptracePokeData env site addr data s =
      (.ok (), (s.note (.pokeData site addr data) true).withMem
        (writeWord s.debugee.mem addr.toNat data)) :=
  Action.bind_of_ok (ptrace_of_granted h _) _

theorem ptracePokeData_of_refused {s : Debugger κ} (h : env.fault s.log.length = true)
    (site : PokeSite) (addr data : UWORD) :
    ptracePokeData env site addr data s =
      (.error Errors.PTRACE_ERROR.code, s.note (.pokeData site addr data) false) :=
  Action.bind_of_error (ptrace_of_refused h _) _

theorem singleStep_of_granted {s : Debugger κ} (h : env.fault s.log.length = false) :
    singleStep env s = (.ok (), { s.note .singleStep true with resumed := some .step }) :=
  Action.bind_of_ok (ptrace_of_granted h _) _

theorem debugContinue_of_granted {s : Debugger κ} (h : env.fault s.log.length = false) :
    debugContinue env s = (.ok (), { s.note .cont true with resumed := some .cont }) :=
  Action.bind_of_ok (ptrace_of_granted h _) _

theorem handleSigtrap_other (env : Env κ) (s : Debugger κ) {siCode : SiCode}
    (hcode : ¬(siCode = .SI_KERNEL ∨ siCode = .TRAP_BRKPT)) :
    handleSigtrap env siCode s = (.ok (), s) := by
  unfold handleSigtrap
  split
  · exact absurd (.inl rfl) hcode
  · exact absurd (.inr rfl) hcode
  · rfl

theorem handleSigtrap_breakpoint (env : Env κ) (s : Debugger κ) {siCode : SiCode}
    (hcode : siCode = .SI_KERNEL ∨ siCode = .TRAP_BRKPT) :
    ∃ log, (handleSigtrap env siCode s).2 =
      { s.withRegs (if !env.fault s.log.length && !env.fault (s.log.length + 1) then
          s.debugee.regs.set .rip (s.debugee.regs.rip - 1) else s.debugee.regs) with log } := by
  have hsame : handleSigtrap env siCode s =
      Action.bind (getRegsStruct env) (fun regs =>
        setRegsStruct env (regs.set .rip (regs.get .rip - 1))) s := by
    rcases hcode with rfl | rfl <;> rfl
  rw [hsame]
  cases hget : env.fault s.log.length with
  | true =>
      exact ⟨_, congrArg Prod.snd (Action.bind_of_error (getRegsStruct_of_refused hget) _)⟩
  | false =>
      have hrest := Action.bind_of_ok (getRegsStruct_of_granted hget) fun regs =>
        setRegsStruct env (regs.set .rip (regs.get .rip - 1))
      cases hset : env.fault (s.log.length + 1) with
      | true =>
          have hregs' := ptrace_of_refused (s := s.note .getRegs true) hset .setRegs
          exact ⟨_, congrArg Prod.snd (hrest.trans (Action.bind_of_error hregs' _))⟩
      | false =>
          have hregs' := ptrace_of_granted (s := s.note .getRegs true) hset .setRegs
          exact ⟨_, congrArg Prod.snd (hrest.trans (Action.bind_of_ok hregs' _))⟩

-- What `handle_sigtrap` makes of the registers when the kernel grants its requests.
def rewind (siCode : SiCode) (regs : RegsStruct) : RegsStruct :=
  match siCode with
  | .SI_KERNEL | .TRAP_BRKPT => regs.set .rip (regs.rip - 1)
  | _ => regs

theorem rewind_pastInt3 (p : Proc κ) : rewind .SI_KERNEL p.pastInt3.regs = p.regs := by
  have hback : p.regs.rip + 1 - 1 = p.regs.rip := by bv_omega
  simp only [Proc.pastInt3, rewind, RegsStruct.set, hback]

theorem handleSigtrap_granted (hfault : ∀ n, env.fault n = false) (s : Debugger κ)
    (siCode : SiCode) :
    ∃ log, handleSigtrap env siCode s =
      (.ok (), { s.withRegs (rewind siCode s.debugee.regs) with log }) := by
  have hrewind : ∃ log, (do
      let regs ← getRegsStruct env
      setRegsStruct env (regs.set .rip (regs.get .rip - 1)) : DebuggerM κ Unit) s =
        (.ok (), { s.withRegs (s.debugee.regs.set .rip (s.debugee.regs.rip - 1)) with log }) :=
    ⟨_, (Action.bind_of_ok (getRegsStruct_of_granted (hfault _)) _).trans
      (Action.bind_of_ok (ptrace_of_granted (hfault _) .setRegs) _)⟩
  cases siCode with
  | SI_KERNEL => exact hrewind
  | TRAP_BRKPT => exact hrewind
  | TRAP_TRACE => exact ⟨s.log, rfl⟩
  | other code => exact ⟨s.log, rfl⟩

theorem waitAndHandleSignal_granted (hfault : ∀ n, env.fault n = false) {s u : Debugger κ}
    {siCode : SiCode} (hawait : awaitStop env (s.note .waitpid true) = (.ok (), u))
    (hinfo : u.info = .signal .SIGTRAP siCode) :
    ∃ log traps, waitAndHandleSignal env s =
      (.ok (), { u.withRegs (rewind siCode u.debugee.regs) with log, traps }) := by
  have hrequest : request env .waitpid s = (.ok true, s.note .waitpid true) := by
    simp only [request, hfault, Bool.not_false]
  have hwaitpid : waitpid env s = (.ok (), u) := (Action.bind_of_ok hrequest _).trans hawait
  have hwait : waitForSignal env s = (.ok (), u) := by
    refine (Action.bind_of_ok hwaitpid _).trans ((Action.bind_of_ok rfl _).trans ?_)
    exact Action.failIf_of_not (by simp [hinfo, debugeeTerminated]) _ _
  have hget : getSiginfo env u = (.ok (.signal .SIGTRAP siCode), u.note .getSiginfo true) := by
    refine (Action.bind_of_ok (ptrace_of_granted (hfault _) _) _).trans ?_
    exact (Action.bind_of_ok rfl _).trans (by rw [← hinfo]; rfl)
  obtain ⟨log, hhandled⟩ := handleSigtrap_granted hfault (u.note .getSiginfo true) siCode
  have hrecord : ∃ traps, recordTrap env siCode (handleSigtrap env siCode)
      (u.note .getSiginfo true) =
        (.ok (), { u.withRegs (rewind siCode u.debugee.regs) with log, traps }) := by
    simp only [recordTrap, hhandled]
    exact ⟨_, rfl⟩
  obtain ⟨traps, hrecord⟩ := hrecord
  exact ⟨log, traps,
    (Action.bind_of_ok hwait _).trans ((Action.bind_of_ok hget _).trans hrecord)⟩

theorem waitAndHandleSignal_pending (hfault : ∀ n, env.fault n = false) {s u : Debugger κ}
    (hawait : awaitStop env (s.note .waitpid true) = (.pending, u)) :
    waitAndHandleSignal env s = (.pending, u) := by
  have hrequest : request env .waitpid s = (.ok true, s.note .waitpid true) := by
    simp only [request, hfault, Bool.not_false]
  have hwaitpid : waitpid env s = (.pending, u) := (Action.bind_of_ok hrequest _).trans hawait
  exact Action.bind_of_pending (Action.bind_of_pending hwaitpid _) _

-- A continued debugee that runs on, and one that stops by a SIGTRAP.
theorem continue_pending (hfault : ∀ n, env.fault n = false) {s : Debugger κ}
    (hrun : runToStop (cpuStep env) env.fuel s.debugee = none) :
    ∃ t, (do debugContinue env; waitAndHandleSignal env : DebuggerM κ Unit) s = (.pending, t) := by
  have hcont := debugContinue_of_granted (hfault s.log.length)
  have hawait : awaitStop env
      (Debugger.note { s.note .cont true with resumed := some .cont } .waitpid true) =
        (.pending, Debugger.note { s.note .cont true with resumed := some .cont } .waitpid true) := by
    simp only [awaitStop, Debugger.note, hrun]
  exact ⟨_, (Action.bind_of_ok hcont _).trans (waitAndHandleSignal_pending hfault hawait)⟩

theorem continue_trapped (hfault : ∀ n, env.fault n = false) {s : Debugger κ} {p : Proc κ}
    {siCode : SiCode}
    (hrun : runToStop (cpuStep env) env.fuel s.debugee = some (p, .signal .SIGTRAP siCode)) :
    ∃ t, (do debugContinue env; waitAndHandleSignal env : DebuggerM κ Unit) s = (.ok (), t) ∧
      t.debugee = { p with regs := rewind siCode p.regs } ∧ t.breakpoints = s.breakpoints := by
  have hcont := debugContinue_of_granted (hfault s.log.length)
  have hawait : awaitStop env
      (Debugger.note { s.note .cont true with resumed := some .cont } .waitpid true) =
        (.ok (), Debugger.settle
          (Debugger.note { s.note .cont true with resumed := some .cont } .waitpid true) p
          (.signal .SIGTRAP siCode)) := by
    simp only [awaitStop, Debugger.note, hrun]
  obtain ⟨log, traps, hwait⟩ := waitAndHandleSignal_granted hfault hawait rfl
  exact ⟨_, (Action.bind_of_ok hcont _).trans hwait, rfl, rfl⟩

end Granted

section Succeeded

variable {κ : Type} {env : Env κ} {s t : Debugger κ}

theorem ptrace_ok {req : Request} (h : ptrace env req s = (.ok (), t)) : ∃ log, t = { s with log } := by
  rcases ptrace_cases env s req with ⟨log, hc⟩ | ⟨_, log, hc⟩
  · exact ⟨log, congrArg Prod.snd (h.symm.trans hc)⟩
  · exact nomatch h.symm.trans hc

theorem handleSigtrap_ok {siCode : SiCode} (h : handleSigtrap env siCode s = (.ok (), t)) :
    ∃ log, t = { s.withRegs (rewind siCode s.debugee.regs) with log } := by
  have hrewind : (do
      let regs ← getRegsStruct env
      setRegsStruct env (regs.set .rip (regs.get .rip - 1)) : DebuggerM κ Unit) s = (.ok (), t) →
        ∃ log, t = { s.withRegs (s.debugee.regs.set .rip (s.debugee.regs.rip - 1)) with log } := by
    intro h
    obtain ⟨regs, mid, hget, hset⟩ := Action.bind_eq_ok.mp h
    rcases getRegsStruct_cases env s with ⟨log, hc⟩ | ⟨_, log, hc⟩
    · rw [hc] at hget
      cases hget
      rcases setRegsStruct_cases env { s with log }
        (s.debugee.regs.set .rip (s.debugee.regs.get .rip - 1)) with ⟨log', hc'⟩ | ⟨_, log', hc'⟩
      · exact ⟨log', congrArg Prod.snd (hset.symm.trans hc')⟩
      · exact nomatch hset.symm.trans hc'
    · exact nomatch hget.symm.trans hc
  cases siCode with
  | SI_KERNEL => exact hrewind h
  | TRAP_BRKPT => exact hrewind h
  | TRAP_TRACE =>
      cases h
      exact ⟨s.log, rfl⟩
  | other code =>
      cases h
      exact ⟨s.log, rfl⟩

theorem recordTrap_ok {siCode : SiCode} {handler : DebuggerM κ Unit}
    (h : recordTrap env siCode handler s = (.ok (), t)) :
    ∃ u, handler s = (.ok (), u) ∧ t.debugee = u.debugee ∧ t.breakpoints = u.breakpoints := by
  unfold recordTrap at h
  rcases hs : handler s with ⟨_ | _ | _, u⟩ <;> rw [hs] at h <;> cases h
  exact ⟨u, rfl, rfl, rfl⟩

-- A wait that succeeds has seen a SIGTRAP.
theorem waitAndHandleSignal_ok (h : waitAndHandleSignal env s = (.ok (), t)) :
    ∃ u siCode, awaitStop env (s.note .waitpid true) = (.ok (), u) ∧
      u.info = .signal .SIGTRAP siCode ∧
      t.debugee = { u.debugee with regs := rewind siCode u.debugee.regs } ∧
      t.breakpoints = u.breakpoints := by
  obtain ⟨_, u, hwait, h⟩ := Action.bind_eq_ok.mp h
  obtain ⟨_, u', hwaitpid, hwait⟩ := Action.bind_eq_ok.mp hwait
  obtain ⟨granted, v, hrequest, hwaitpid⟩ := Action.bind_eq_ok.mp hwaitpid
  have hu : u = u' := by
    obtain ⟨_, _, hfetch, hfail⟩ := Action.bind_eq_ok.mp hwait
    cases hfetch
    exact (congrArg Prod.snd hfail).symm
  subst hu
  obtain ⟨info, w, hinfo, h⟩ := Action.bind_eq_ok.mp h
  obtain ⟨_, w', hptrace, hinfo⟩ := Action.bind_eq_ok.mp hinfo
  obtain ⟨log, hlog⟩ := ptrace_ok hptrace
  cases hinfo
  have hgranted : granted = true ∧ v = s.note .waitpid granted := by
    cases hrequest
    cases hg : !env.fault s.log.length with
    | true => exact ⟨rfl, rfl⟩
    | false =>
        rw [hg] at hwaitpid
        exact nomatch hwaitpid
  obtain ⟨rfl, rfl⟩ := hgranted
  have hsame : w.info = u.info := by rw [hlog]
  rcases hcode : w.info with ⟨signo, siCode⟩ | _
  · cases signo with
    | SIGTRAP =>
        rw [hcode] at h
        obtain ⟨x, hsig, hdebugee, htable⟩ := recordTrap_ok h
        obtain ⟨log', rfl⟩ := handleSigtrap_ok hsig
        subst hlog
        exact ⟨u, siCode, hwaitpid, hcode, hdebugee, htable⟩
    | other signo =>
        rw [hcode] at h
        exact nomatch h
  · rw [hcode] at h
    exact nomatch h

theorem continue_ok
    (h : (do debugContinue env; waitAndHandleSignal env : DebuggerM κ Unit) s = (.ok (), t)) :
    ∃ p siCode, runToStop (cpuStep env) env.fuel s.debugee = some (p, .signal .SIGTRAP siCode) ∧
      t.debugee = { p with regs := rewind siCode p.regs } ∧ t.breakpoints = s.breakpoints := by
  obtain ⟨_, mid, hcont, h⟩ := Action.bind_eq_ok.mp h
  obtain ⟨_, mid', hptrace, hcont⟩ := Action.bind_eq_ok.mp hcont
  obtain ⟨log, rfl⟩ := ptrace_ok hptrace
  cases hcont
  obtain ⟨u, siCode, hawait, hinfo, hdebugee, htable⟩ := waitAndHandleSignal_ok h
  simp only [awaitStop, Debugger.note] at hawait
  rcases hrun : runToStop (cpuStep env) env.fuel s.debugee with _ | ⟨p, stop⟩
  · rw [hrun] at hawait
    exact nomatch hawait
  rw [hrun] at hawait
  cases hawait
  have hstop : stop = .signal .SIGTRAP siCode := hinfo
  subst hstop
  exact ⟨p, siCode, rfl, hdebugee, htable⟩

end Succeeded

end VDebugger
