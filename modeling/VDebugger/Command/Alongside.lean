import VDebugger.Command
import VDebugger.DwarfInfo.Units
import VDebugger.Machine.Alongside

namespace VDebugger

open Machine Action

variable {κ : Type} {env : Env κ} {s t u : Debugger κ}

section SameCourse

-- Every unit can be read and the next search starts with the first.
def Settled (s : Debugger κ) : Prop := (∀ cu ∈ s.dwarfDbg.cus, cu.Readable) ∧ s.dwarfDbg.cursor = 0

-- Two debuggers that nothing tells apart but the requests that each has made.
structure SameCourse (s t : Debugger κ) : Prop where
  settled : Settled s
  loadAddress : t.loadAddress = s.loadAddress
  breakpoints : t.breakpoints = s.breakpoints
  dwarfDbg : t.dwarfDbg = s.dwarfDbg
  debugee : t.debugee = s.debugee
  resumed : t.resumed = s.resumed
  info : t.info = s.info

-- The kernel refuses nothing, and an object that was never written reads the same at all times.
structure Steady (env : Env κ) : Prop where
  fault : ∀ n, env.fault n = false
  undef : ∀ m n, env.undef m = env.undef n

theorem SameCourse.refl (h : Settled s) : SameCourse s s := ⟨h, rfl, rfl, rfl, rfl, rfl, rfl⟩

theorem Settled.lookup_eq (h : Settled s) (lookup : CuLookup) :
    lookup.run s.dwarfDbg = s.dwarfDbg := by
  obtain ⟨hread, hcursor⟩ := h
  have hstart : s.dwarfDbg = ⟨s.dwarfDbg.cus, 0⟩ := by
    rw [← hcursor]
  rw [hstart]
  exact CuLookup.foldl_run hread [lookup]

end SameCourse

section Requests

theorem request_respects (h : Steady env) (req : Request) :
    (request env req).Respects SameCourse := by
  intro s t hst
  refine ⟨?_, hst.settled, hst.loadAddress, hst.breakpoints, hst.dwarfDbg, hst.debugee,
    hst.resumed, hst.info⟩
  change Outcome.ok (!env.fault s.log.length) = Outcome.ok (!env.fault t.log.length)
  rw [h.fault, h.fault]

theorem ptrace_respects (h : Steady env) (req : Request) : (ptrace env req).Respects SameCourse :=
  Respects.bind (request_respects h req) fun granted => by
    cases granted
    · exact Respects.fail _
    · exact Respects.pure ()

theorem ptracePeekData_respects (h : Steady env) (addr : UWORD) :
    (ptracePeekData env addr).Respects SameCourse :=
  Respects.bind (ptrace_respects h _) fun _ =>
    Respects.fetch_bind (fun s t hst => by rw [hst.debugee]) fun _ => Respects.pure _

theorem ptracePokeData_respects (h : Steady env) (site : PokeSite) (addr data : UWORD) :
    (ptracePokeData env site addr data).Respects SameCourse := by
  refine Respects.bind (ptrace_respects h _) fun _ => Respects.change fun s t hst =>
    ⟨hst.settled, hst.loadAddress, hst.breakpoints, hst.dwarfDbg, ?_, hst.resumed, hst.info⟩
  unfold Debugger.withMem
  dsimp only
  rw [hst.debugee]

theorem getRegsStruct_respects (h : Steady env) : (getRegsStruct env).Respects SameCourse :=
  Respects.bind (ptrace_respects h _) fun _ =>
    Respects.fetch_bind (fun s t hst => by rw [hst.debugee]) fun _ => Respects.pure _

theorem setRegsStruct_respects (h : Steady env) (regs : RegsStruct) :
    (setRegsStruct env regs).Respects SameCourse := by
  refine Respects.bind (ptrace_respects h _) fun _ => Respects.change fun s t hst =>
    ⟨hst.settled, hst.loadAddress, hst.breakpoints, hst.dwarfDbg, ?_, hst.resumed, hst.info⟩
  unfold Debugger.withRegs
  dsimp only
  rw [hst.debugee]

theorem getRegValue_respects (h : Steady env) (reg : REGISTER) :
    (getRegValue env reg).Respects SameCourse :=
  Respects.bind (getRegsStruct_respects h) fun _ => Respects.pure _

theorem setRegValue_respects (h : Steady env) (reg : REGISTER) (value : WORD) :
    (setRegValue env reg value).Respects SameCourse :=
  Respects.bind (getRegsStruct_respects h) fun _ => setRegsStruct_respects h _

theorem resume_respects (how : Resume) :
    (Action.change fun s : Debugger κ => { s with resumed := some how }).Respects SameCourse :=
  Respects.change fun _ _ hst => ⟨hst.settled, hst.loadAddress, hst.breakpoints, hst.dwarfDbg,
    hst.debugee, rfl, hst.info⟩

theorem SameCourse.settle (h : SameCourse s t) (p : Proc κ) (info : Stop) :
    SameCourse (s.settle p info) (t.settle p info) :=
  ⟨h.settled, h.loadAddress, h.breakpoints, h.dwarfDbg, rfl, rfl, rfl⟩

theorem awaitStop_respects (env : Env κ) : (awaitStop env).Respects SameCourse := by
  intro s t hst
  unfold awaitStop
  rw [hst.resumed, hst.debugee]
  cases s.resumed with
  | none => exact ⟨rfl, hst⟩
  | some how =>
      cases how with
      | step => exact ⟨rfl, hst.settle _ _⟩
      | cont =>
          dsimp only
          cases runToStop (cpuStep env) env.fuel s.debugee with
          | none => exact ⟨rfl, hst⟩
          | some stopped => exact ⟨rfl, hst.settle _ _⟩

theorem waitAndHandleSignal_respects (h : Steady env) :
    (waitAndHandleSignal env).Respects SameCourse := by
  have hwaitpid : (waitpid env).Respects SameCourse :=
    Respects.bind (request_respects h _) fun granted => by
      cases granted
      · exact Respects.fail _
      · exact awaitStop_respects env
  have hwait : (waitForSignal env).Respects SameCourse :=
    Respects.bind hwaitpid fun _ =>
      Respects.fetch_bind (fun s t hst => by rw [hst.info]) fun _ => Respects.failIf _ _
  have hsiginfo : (getSiginfo env).Respects SameCourse :=
    Respects.bind (ptrace_respects h _) fun _ =>
      Respects.fetch_bind (fun s t hst => by rw [hst.info]) fun _ => Respects.pure _
  have hrewind : (do
      let regs ← getRegsStruct env
      setRegsStruct env (regs.set .rip (regs.get .rip - 1)) : DebuggerM κ Unit).Respects
        SameCourse :=
    Respects.bind (getRegsStruct_respects h) fun _ => setRegsStruct_respects h _
  have htrap (siCode : SiCode) : (handleSigtrap env siCode).Respects SameCourse := by
    cases siCode with
    | SI_KERNEL | TRAP_BRKPT => exact hrewind
    | TRAP_TRACE | other _ => exact Respects.pure ()
  have hrecord (siCode : SiCode) :
      (recordTrap env siCode (handleSigtrap env siCode)).Respects SameCourse := by
    intro s t hst
    obtain ⟨hres, hstate⟩ := htrap siCode s t hst
    exact ⟨hres, hstate.settled, hstate.loadAddress, hstate.breakpoints, hstate.dwarfDbg,
      hstate.debugee, hstate.resumed, hstate.info⟩
  refine Respects.bind hwait fun _ => Respects.bind hsiginfo fun info => ?_
  split
  · exact hrecord _
  · exact Respects.fail _

end Requests

section Breakpoints

theorem getBreakpointAtAddr_respects (env : Env κ) (a : WORD) :
    (getBreakpointAtAddr env a).Respects SameCourse := by
  intro s t hst
  rw [getBreakpointAtAddr_eq, getBreakpointAtAddr_eq, hst.breakpoints]
  exact ⟨rfl, hst⟩

theorem table_respects {f : Table → Table} : (Action.change fun s : Debugger κ =>
    { s with breakpoints := f s.breakpoints }).Respects SameCourse :=
  Respects.change fun _ _ hst => ⟨hst.settled, hst.loadAddress, congrArg f hst.breakpoints,
    hst.dwarfDbg, hst.debugee, hst.resumed, hst.info⟩

theorem saveBreakpoint_respects (bp : Breakpoint) :
    (saveBreakpoint bp : DebuggerM κ Unit).Respects SameCourse :=
  table_respects (f := fun table => table.set bp)

theorem deleteBreakpoint_respects (bp : Breakpoint) :
    (deleteBreakpoint bp : DebuggerM κ Unit).Respects SameCourse :=
  table_respects (f := fun table => table.delete bp)

theorem enableBreakpoint_respects (h : Steady env) (bp : Breakpoint) :
    (enableBreakpoint env bp).Respects SameCourse :=
  Respects.bind (ptracePeekData_respects h _) fun _ =>
    Respects.bind (ptracePokeData_respects h _ _ _) fun _ => Respects.pure _

theorem disableBreakpoint_respects (h : Steady env) (bp : Breakpoint) :
    (disableBreakpoint env bp).Respects SameCourse :=
  Respects.bind (ptracePokeData_respects h _ _ _) fun _ => Respects.pure _

theorem handleBreakpointAt_respects (h : Steady env) (action : BreakpointAction) (a : WORD) :
    (handleBreakpointAt env action a).Respects SameCourse := by
  refine Respects.bind (getBreakpointAtAddr_respects env a) fun found =>
    Respects.bind (Respects.failIf _ _) fun _ => ?_
  cases action with
  | ENABLE_BREAKPOINT =>
      exact Respects.bind (Respects.orFail (enableBreakpoint_respects h _) 1)
        saveBreakpoint_respects
  | DISABLE_BREAKPOINT =>
      exact Respects.bind (Respects.orFail (disableBreakpoint_respects h _) 1)
        deleteBreakpoint_respects

theorem stepInstruction_respects (h : Steady env) : (stepInstruction env).Respects SameCourse :=
  Respects.bind (Respects.bind (ptrace_respects h _) fun _ => resume_respects .step) fun _ =>
    waitAndHandleSignal_respects h

theorem stepOverBreakpoint_respects (h : Steady env) :
    (stepOverBreakpoint env).Respects SameCourse := by
  have hlift : (stepOverLift env).Respects SameCourse := by
    refine Respects.bind (getRegsStruct_respects h) fun regs =>
      Respects.bind (getBreakpointAtAddr_respects env _) fun found =>
        Respects.bind (Respects.failIf _ _) fun _ => ?_
    split
    · exact Respects.pure _
    · exact Respects.bind (disableBreakpoint_respects h _) fun _ => Respects.pure _
  refine Respects.bind hlift fun lifted => ?_
  cases lifted with
  | none => exact Respects.pure ()
  | some bp =>
      exact Respects.bind (stepInstruction_respects h) fun _ =>
        Respects.bind (enableBreakpoint_respects h bp) fun _ => Respects.pure ()

end Breakpoints

section Commands

theorem handleStepLoop_respects (h : Steady env) (times : Nat) :
    (handleStepLoop env times).Respects SameCourse := by
  have hpass : (handleStepPass env).Respects SameCourse := by
    refine Respects.fetch_bind (fun s t _ => by rw [h.undef s.log.length t.log.length]) fun s =>
      Respects.bind (Respects.attempt (getRegValue_respects h _)) fun read =>
        Respects.bind (getBreakpointAtAddr_respects env _) fun found =>
          Respects.bind (Respects.failIf _ _) fun _ => ?_
    split
    · exact stepOverBreakpoint_respects h
    · exact stepInstruction_respects h
  induction times with
  | zero => exact Respects.pure ()
  | succ times ih => exact Respects.bind hpass fun _ => ih

theorem handleContinue_respects (h : Steady env) : (handleContinue env).Respects SameCourse :=
  Respects.bind (stepOverBreakpoint_respects h) fun _ =>
    Respects.bind (Respects.bind (ptrace_respects h _) fun _ => resume_respects .cont) fun _ =>
      waitAndHandleSignal_respects h

theorem stepOut_respects (h : Steady env) : (stepOut env).Respects SameCourse := by
  have hunwind : (unwindFrameBase env).Respects SameCourse := by
    refine Respects.fetch_bind (fun s t hst => by rw [hst.debugee]) fun s =>
      Respects.bind (Respects.failIf _ _) fun _ => Respects.bind (Respects.failIf _ _) fun _ => ?_
    dsimp only
    split
    · exact Respects.pure _
    · exact Respects.bind (Respects.failIf _ _) fun _ => Respects.pure _
  refine Respects.bind hunwind fun frameBase => ?_
  cases frameBase with
  | none => exact Respects.pure ()
  | some frameBase =>
      have harm : (stepOutArm env frameBase).Respects SameCourse :=
        Respects.bind (ptracePeekData_respects h _) fun _ =>
          Respects.bind (getBreakpointAtAddr_respects env _) fun _ =>
            Respects.bind (Respects.failIf _ _) fun _ =>
              Respects.bind (enableBreakpoint_respects h _) fun _ => Respects.pure _
      have hrestore (bp : Breakpoint) (temp : Bool) :
          (stepOutRestore env bp temp).Respects SameCourse := by
        unfold stepOutRestore
        split
        · exact Respects.bind (disableBreakpoint_respects h bp) fun _ => Respects.pure ()
        · exact Respects.pure ()
      exact Respects.bind harm fun armed =>
        Respects.bind (handleContinue_respects h) fun _ => hrestore armed.1 armed.2

-- The search comes back to the first unit.
theorem stepInLookup_respects (h : Steady env) : (stepInLookup env).Respects SameCourse := by
  refine Respects.bind (getRegValue_respects h _) fun pc => ?_
  intro s t hst
  have hsearch : (getCuFromAddr (pc - s.loadAddress) s.dwarfDbg).2 = s.dwarfDbg :=
    hst.settled.lookup_eq (.fromAddr (pc - s.loadAddress))
  rw [bind_of_ok (fetch_apply s), bind_of_ok (fetch_apply t), hst.loadAddress, hst.dwarfDbg]
  dsimp only
  generalize getCuFromAddr (pc - s.loadAddress) s.dwarfDbg = found at hsearch ⊢
  obtain ⟨⟨res, cuDie⟩, dwarfDbg⟩ := found
  obtain rfl : dwarfDbg = s.dwarfDbg := hsearch
  refine Respects.bind (Respects.change fun u v huv => ⟨hst.settled, huv.loadAddress,
    huv.breakpoints, rfl, huv.debugee, huv.resumed, huv.info⟩) (fun _ => ?_) s t hst
  repeat' split
  all_goals first | exact Respects.fail _ | exact Respects.pure _

theorem stepInInstall_respects (h : Steady env) (highPc : UWORD) (rows : List LineRow) :
    (stepInInstall env highPc rows).Respects SameCourse := by
  induction rows with
  | nil => exact Respects.pure ()
  | cons row rows ih =>
      unfold stepInInstall
      split
      · exact Respects.fail _
      · exact Respects.fail _
      · split
        · exact Respects.pure ()
        · refine Respects.fetch_bind (fun s t hst => by rw [hst.loadAddress]) fun s =>
            Respects.bind (getBreakpointAtAddr_respects env _) fun found =>
              Respects.bind (Respects.failIf _ _) fun _ => ?_
          split
          · exact ih
          · exact Respects.bind (enableBreakpoint_respects h _) fun bp =>
              Respects.bind (saveBreakpoint_respects bp) fun _ => ih

theorem stepInCleanup_respects (h : Steady env) (highPc : UWORD) (rows : List LineRow) :
    (stepInCleanup env highPc rows).Respects SameCourse := by
  induction rows with
  | nil => exact Respects.pure ()
  | cons row rows ih =>
      unfold stepInCleanup
      split
      · exact Respects.fail _
      · exact Respects.fail _
      · split
        · exact Respects.pure ()
        · refine Respects.fetch_bind (fun s t hst => by rw [hst.loadAddress]) fun s =>
            Respects.bind (getBreakpointAtAddr_respects env _) fun found =>
              Respects.bind (Respects.failIf _ _) fun _ => ?_
          split
          · exact ih
          · exact Respects.bind (disableBreakpoint_respects h _) fun _ => ih

theorem handleCommand_respects (h : Steady env) (command : Command) :
    (handleCommand env command).Respects SameCourse := by
  cases command with
  | enable a => exact handleBreakpointAt_respects h _ a
  | disable a => exact handleBreakpointAt_respects h _ a
  | writeRegister reg value =>
      exact Respects.bind (getRegsStruct_respects h) fun _ =>
        Respects.bind (Respects.attempt (setRegValue_respects h reg value)) fun _ =>
          Respects.pure ()
  | step times => exact handleStepLoop_respects h _
  | cont => exact handleContinue_respects h
  | finish => exact stepOut_respects h
  | next =>
      exact Respects.bind (stepInLookup_respects h) fun found =>
        Respects.bind (stepInInstall_respects h _ _) fun _ =>
          Respects.bind (stepOut_respects h) fun _ => stepInCleanup_respects h _ _

end Commands

end VDebugger
