import VDebugger.Command.Kept

namespace VDebugger

open Machine

variable {κ α β : Type} {env : Env κ}

-- Requests are filed and never taken back.
def Grown (s t : Debugger κ) : Prop := s.log.length ≤ t.log.length

theorem Grown.refl (s : Debugger κ) : Grown s s := Nat.le_refl _

theorem Grown.trans (s t u : Debugger κ) (h : Grown s t) (h' : Grown t u) : Grown s u :=
  Nat.le_trans h h'

theorem Grown.note (s : Debugger κ) (req : Request) (granted : Bool) : Grown s (s.note req granted) :=
  Nat.le_succ s.log.length

theorem grown_kept (env : Env κ) : Kept env (Grown (κ := κ)) where
  refl := Grown.refl
  trans := Grown.trans
  note s req granted _ := Grown.note s req granted
  withMem s _ := Grown.refl s
  withRegs s _ := Grown.refl s
  resume s _ := Grown.refl s
  settle s _ _ := Grown.refl s
  search s _ := Grown.refl s
  trap siCode s :=
    have hkeeps : (handleSigtrap env siCode).Keeps Grown :=
      handleSigtrap_keeps Grown.refl Grown.trans (fun s req granted _ => Grown.note s req granted)
        (fun s _ => Grown.refl s) siCode
    hkeeps s
  insert s a data granted := Grown.note s (.pokeData .enable a data) granted
  save s _ _ := Grown.refl s
  delete s _ := Grown.refl s

-- The kernel has refused none of the requests between two states.
def Granted (env : Env κ) (s t : Debugger κ) : Prop :=
  ∀ n, s.log.length ≤ n → n < t.log.length → env.fault n = false

-- The single steps that the debugger has made.
def Debugger.singleSteps (s : Debugger κ) : Nat := s.log.count (.singleStep, true)

theorem singleSteps_note (s : Debugger κ) {req : Request} (h : req ≠ .singleStep)
    (granted : Bool) : (s.note req granted).singleSteps = s.singleSteps := by
  simp [Debugger.singleSteps, Debugger.note, h]

theorem singleSteps_note_singleStep (s : Debugger κ) :
    (s.note .singleStep true).singleSteps = s.singleSteps + 1 := by
  simp [Debugger.singleSteps, Debugger.note]

namespace Granted

variable {s t u : Debugger κ}

theorem upTo (h : Granted env s u) (htu : Grown t u) : Granted env s t :=
  fun n hfrom hto => h n hfrom (Nat.lt_of_lt_of_le hto htu)

theorem since (h : Granted env s u) (hst : Grown s t) : Granted env t u :=
  fun n hfrom hto => h n (Nat.le_trans hst hfrom) hto

-- Both parts of a sequence have their requests granted.
theorem bind {x : DebuggerM κ α} {f : α → DebuggerM κ β} (h : Granted env s ((x >>= f) s).2)
    (hx : x.Keeps Grown) (hf : ∀ a, (f a).Keeps Grown) :
    Granted env s (x s).2 ∧ ∀ a t, x s = (.ok a, t) → Granted env t (f a t).2 := by
  refine ⟨h.upTo (Action.Keeps.after Grown.refl hf s), fun a t hrun => ?_⟩
  rw [Action.bind_of_ok hrun] at h
  have hgrown := hx s
  rw [hrun] at hgrown
  exact h.since hgrown

theorem request {req : Request} (h : Granted env s (VDebugger.request env req s).2) :
    VDebugger.request env req s = (.ok true, s.note req true) := by
  have hfault : env.fault s.log.length = false := h _ (Nat.le_refl _) (Nat.lt_succ_self _)
  simp only [VDebugger.request, hfault, Bool.not_false]

theorem ptrace {req : Request} (h : Granted env s (VDebugger.ptrace env req s).2) :
    VDebugger.ptrace env req s = (.ok (), s.note req true) := by
  cases hfault : env.fault s.log.length with
  | false => exact ptrace_of_granted hfault req
  | true =>
      rw [ptrace_of_refused hfault] at h
      rw [h _ (Nat.le_refl _) (Nat.lt_succ_self _)] at hfault
      cases hfault

end Granted

theorem request_grown (env : Env κ) (req : Request) : (request env req).Keeps Grown :=
  fun s => Grown.note s req _

theorem ptrace_grown (env : Env κ) (req : Request) : (ptrace env req).Keeps Grown := by
  apply (grown_kept env).bind (request_grown env req)
  intro granted
  cases granted <;> exact Grown.refl

-- A refused PTRACE_GETREGS would be the end of a call that starts with one.
theorem Granted.getRegs_bind {s : Debugger κ} {f : RegsStruct → DebuggerM κ α}
    (h : Granted env s ((getRegsStruct env >>= f) s).2) :
    getRegsStruct env s = (.ok s.debugee.regs, s.note .getRegs true) := by
  cases hfault : env.fault s.log.length with
  | false => exact getRegsStruct_of_granted hfault
  | true =>
      rw [Action.bind_of_error (getRegsStruct_of_refused hfault)] at h
      rw [h _ (Nat.le_refl _) (Nat.lt_succ_self _)] at hfault
      cases hfault

-- A call that succeeds where its requests are granted, lets nothing run and reports no
-- stop.
structure Serves (env : Env κ) (x : DebuggerM κ α) : Prop where
  grown : x.Keeps Grown
  served : ∀ s, Granted env s (x s).2 →
    ∃ a t, x s = (.ok a, t) ∧ t.singleSteps = s.singleSteps ∧ t.info = s.info

namespace Serves

theorem pure (a : α) : Serves env (Pure.pure a : DebuggerM κ α) :=
  ⟨Grown.refl, fun s _ => ⟨a, s, rfl, rfl, rfl⟩⟩

theorem fetch : Serves env (Action.fetch : DebuggerM κ (Debugger κ)) :=
  ⟨Grown.refl, fun s _ => ⟨s, s, rfl, rfl, rfl⟩⟩

theorem bind {x : DebuggerM κ α} {f : α → DebuggerM κ β} (hx : Serves env x)
    (hf : ∀ a, Serves env (f a)) : Serves env (x >>= f) := by
  refine ⟨(grown_kept env).bind hx.grown fun a => (hf a).grown, fun s h => ?_⟩
  obtain ⟨hfirst, hrest⟩ := h.bind hx.grown fun a => (hf a).grown
  obtain ⟨a, t, hrun, hsteps, hinfo⟩ := hx.served s hfirst
  obtain ⟨b, u, hrun', hsteps', hinfo'⟩ := (hf a).served t (hrest a t hrun)
  exact ⟨b, u, (Action.bind_of_ok hrun f).trans hrun', hsteps'.trans hsteps, hinfo'.trans hinfo⟩

theorem ptrace {req : Request} (h : req ≠ .singleStep) : Serves env (VDebugger.ptrace env req) :=
  ⟨ptrace_grown env req, fun s hgranted =>
    ⟨(), _, hgranted.ptrace, singleSteps_note s h true, rfl⟩⟩

theorem getRegs : Serves env (getRegsStruct env) :=
  (ptrace (by decide)).bind fun _ => fetch.bind fun _ => pure _

theorem setRegs (regs : RegsStruct) : Serves env (setRegsStruct env regs) :=
  (ptrace (by decide)).bind fun _ => ⟨fun _ => Nat.le_refl _, fun _ _ => ⟨(), _, rfl, rfl, rfl⟩⟩

theorem peekData (addr : UWORD) : Serves env (ptracePeekData env addr) :=
  (ptrace (by simp)).bind fun _ => fetch.bind fun _ => pure _

theorem pokeData (site : PokeSite) (addr data : UWORD) :
    Serves env (ptracePokeData env site addr data) :=
  (ptrace (by simp)).bind fun _ => ⟨fun _ => Nat.le_refl _, fun _ _ => ⟨(), _, rfl, rfl, rfl⟩⟩

theorem enableBreakpoint (bp : Breakpoint) : Serves env (VDebugger.enableBreakpoint env bp) :=
  (peekData _).bind fun _ => (pokeData _ _ _).bind fun _ => pure _

theorem disableBreakpoint (bp : Breakpoint) : Serves env (VDebugger.disableBreakpoint env bp) :=
  (pokeData _ _ _).bind fun _ => pure _

theorem handleSigtrap (siCode : SiCode) : Serves env (VDebugger.handleSigtrap env siCode) := by
  cases siCode with
  | SI_KERNEL => exact getRegs.bind fun _ => setRegs _
  | TRAP_BRKPT => exact getRegs.bind fun _ => setRegs _
  | TRAP_TRACE => exact pure ()
  | other code => exact pure ()

end Serves

theorem waitpid_grown (env : Env κ) : (waitpid env).Keeps Grown := by
  apply (grown_kept env).bind (request_grown env .waitpid)
  intro granted
  cases granted
  · exact Grown.refl
  · exact (grown_kept env).awaitStop

theorem singleStep_grown (env : Env κ) : (singleStep env).Keeps Grown :=
  (grown_kept env).bind (ptrace_grown env .singleStep) fun _ _ => Nat.le_refl _

section Stepping

variable {s : Debugger κ}

-- A debugee that was told to step comes back.
theorem awaitStop_of_step (env : Env κ) (s : Debugger κ) (hresumed : s.resumed = some .step) :
    ∃ p info, awaitStop env s = (.ok (), s.settle p info) := by
  simp only [awaitStop, hresumed]
  exact ⟨_, _, rfl⟩

theorem waitpid_of_granted (hresumed : s.resumed = some .step)
    (h : Granted env s (waitpid env s).2) :
    ∃ t, waitpid env s = (.ok (), t) ∧ t.singleSteps = s.singleSteps := by
  have hrest (granted : Bool) : (if granted then awaitStop env
      else Action.fail Errors.WAIT_PID_ERROR.code : DebuggerM κ Unit).Keeps Grown := by
    cases granted
    · exact Grown.refl
    · exact (grown_kept env).awaitStop
  have hrequest := (h.bind (request_grown env .waitpid) hrest).1.request
  obtain ⟨p, info, hawait⟩ := awaitStop_of_step env (s.note .waitpid true) hresumed
  exact ⟨_, (Action.bind_of_ok hrequest _).trans hawait, singleSteps_note s (by decide) true⟩

theorem checkExited_grown : (do
    let s ← Action.fetch
    Action.failIf (debugeeTerminated s.info) Errors.DEBUGEE_EXITED.code :
      DebuggerM κ Unit).Keeps Grown := Grown.refl

theorem waitForSignal_grown (env : Env κ) : (waitForSignal env).Keeps Grown :=
  (grown_kept env).bind (waitpid_grown env) fun _ => checkExited_grown

theorem waitForSignal_of_granted (hresumed : s.resumed = some .step)
    (h : Granted env s (waitForSignal env s).2) :
    ∃ t, t.singleSteps = s.singleSteps ∧ waitForSignal env s =
      (if debugeeTerminated t.info then .error Errors.DEBUGEE_EXITED.code else .ok (), t) := by
  have hwaitpid := (h.bind (waitpid_grown env) fun _ => checkExited_grown).1
  obtain ⟨t, hrun, hsteps⟩ := waitpid_of_granted hresumed hwaitpid
  exact ⟨t, hsteps, Action.bind_of_ok hrun _⟩

theorem getSiginfo_grown (env : Env κ) : (getSiginfo env).Keeps Grown :=
  (grown_kept env).bind (ptrace_grown env .getSiginfo) fun _ => Grown.refl

theorem getSiginfo_of_granted (h : Granted env s (getSiginfo env s).2) :
    getSiginfo env s = (.ok s.info, s.note .getSiginfo true) :=
  Action.bind_of_ok (h.bind (ptrace_grown env .getSiginfo) fun _ => Grown.refl).1.ptrace _

theorem handleSignal_grown (env : Env κ) (info : Stop) : (match info with
    | .signal .SIGTRAP si_code => recordTrap env si_code (handleSigtrap env si_code)
    | _ => Action.fail (-1) : DebuggerM κ Unit).Keeps Grown := by
  split
  · exact (grown_kept env).trap _
  · exact Grown.refl

theorem recordTrap_of_granted {siCode : SiCode}
    (h : Granted env s (recordTrap env siCode (handleSigtrap env siCode) s).2) :
    ∃ t, recordTrap env siCode (handleSigtrap env siCode) s = (.ok (), t) ∧
      t.singleSteps = s.singleSteps := by
  obtain ⟨_, t, hrun, hsteps, -⟩ := (Serves.handleSigtrap siCode).served s h
  simp only [recordTrap, hrun]
  exact ⟨_, rfl, hsteps⟩

-- The stop that the debugee is left in decides what becomes of the call.
theorem waitAndHandleSignal_of_granted (hresumed : s.resumed = some .step)
    (h : Granted env s (waitAndHandleSignal env s).2) {siCode : SiCode}
    (hinfo : (waitAndHandleSignal env s).2.info = .signal .SIGTRAP siCode) :
    ∃ t, waitAndHandleSignal env s = (.ok (), t) ∧ t.singleSteps = s.singleSteps := by
  obtain ⟨hfirst, hrest⟩ := h.bind (waitForSignal_grown env) fun _ =>
    (grown_kept env).bind (getSiginfo_grown env) (handleSignal_grown env)
  obtain ⟨t, hsteps, hwait⟩ := waitForSignal_of_granted hresumed hfirst
  cases hstop : t.info with
  | exited =>
      rw [hstop] at hwait
      have hfailed : waitAndHandleSignal env s = (.error Errors.DEBUGEE_EXITED.code, t) :=
        Action.bind_of_error hwait _
      rw [hfailed, hstop] at hinfo
      cases hinfo
  | signal signo code =>
      rw [hstop] at hwait
      have hwaited : waitForSignal env s = (.ok (), t) := hwait
      obtain ⟨hget, hthen⟩ :=
        (hrest () t hwaited).bind (getSiginfo_grown env) (handleSignal_grown env)
      have hsiginfo := getSiginfo_of_granted hget
      have hrun : waitAndHandleSignal env s = _ :=
        (Action.bind_of_ok hwaited _).trans (Action.bind_of_ok hsiginfo _)
      have hhandled := hthen _ _ hsiginfo
      rw [hstop] at hrun hhandled
      cases signo with
      | SIGTRAP =>
          obtain ⟨u, hhandle, hsame⟩ := recordTrap_of_granted hhandled
          refine ⟨u, hrun.trans hhandle, hsame.trans ?_⟩
          exact (singleSteps_note t (by decide) true).trans hsteps
      | other signo =>
          have hlast : t.info = .signal .SIGTRAP siCode := by
            rw [← hinfo]
            exact congrArg (fun run => run.2.info) hrun.symm
          rw [hstop] at hlast
          cases hlast

theorem stepInstruction_of_granted (h : Granted env s (stepInstruction env s).2) {siCode : SiCode}
    (hinfo : (stepInstruction env s).2.info = .signal .SIGTRAP siCode) :
    ∃ t, stepInstruction env s = (.ok (), t) ∧ t.singleSteps = s.singleSteps + 1 := by
  obtain ⟨hfirst, hrest⟩ :=
    h.bind (singleStep_grown env) fun _ => (grown_kept env).waitAndHandleSignal
  have hstep : singleStep env s =
      (.ok (), { s.note .singleStep true with resumed := some .step }) :=
    Action.bind_of_ok (hfirst.bind (ptrace_grown env .singleStep) fun _ _ => Nat.le_refl _).1.ptrace _
  have hrun := Action.bind_of_ok hstep fun _ => waitAndHandleSignal env
  have hinfo' := (congrArg (fun run => run.2.info) hrun.symm).trans hinfo
  obtain ⟨t, hwait, hsteps⟩ := waitAndHandleSignal_of_granted rfl (hrest () _ hstep) hinfo'
  exact ⟨t, hrun.trans hwait, hsteps.trans (singleSteps_note_singleStep s)⟩

theorem stepOverLift_of_granted (hon : s.breakpoints.enabledAt s.debugee.regs.rip)
    (h : Granted env s (stepOverLift env s).2) :
    ∃ bp t, stepOverLift env s = (.ok (some bp), t) ∧ t.singleSteps = s.singleSteps := by
  have hstart := stepOverLift_eq env s h.getRegs_bind
  rw [(Table.lookup_enabled_iff _ _).mpr hon, Bool.not_true, if_neg (by decide)] at hstart
  rw [hstart] at h
  have hthen : Granted env (s.note .getRegs true) _ := h.since (Nat.le_succ s.log.length)
  have hdisable := (hthen.bind (Serves.disableBreakpoint _).grown fun _ => (grown_kept env).pure _).1
  obtain ⟨bp, t, hrun, hsteps, -⟩ := (Serves.disableBreakpoint _).served _ hdisable
  refine ⟨bp, t, hstart.trans (Action.bind_of_ok hrun _), hsteps.trans ?_⟩
  exact singleSteps_note s (by decide) true

-- The stop that is left in the end is that of the step.
theorem stepOverPutBack_of_granted {bp : Breakpoint}
    (h : Granted env s (stepOverPutBack env (some bp) s).2) {siCode : SiCode}
    (hinfo : (stepOverPutBack env (some bp) s).2.info = .signal .SIGTRAP siCode) :
    ∃ t, stepOverPutBack env (some bp) s = (.ok (), t) ∧ t.singleSteps = s.singleSteps + 1 := by
  have henable : Serves env (do
      let _ ← enableBreakpoint env bp
      pure () : DebuggerM κ Unit) := (Serves.enableBreakpoint bp).bind fun _ => .pure ()
  obtain ⟨hstep, hthen⟩ := h.bind (grown_kept env).stepInstruction fun _ => henable.grown
  have hstop : (stepInstruction env s).2.info = .signal .SIGTRAP siCode := by
    rcases hrun : stepInstruction env s with ⟨_ | _ | _, u⟩
    · obtain ⟨_, v, hput, -, hsame⟩ := henable.served u (hthen _ u hrun)
      have hall : stepOverPutBack env (some bp) s = (.ok (), v) :=
        (Action.bind_of_ok hrun _).trans hput
      rw [hall] at hinfo
      exact hsame.symm.trans hinfo
    · rwa [stepOverPutBack, Action.bind_of_error hrun] at hinfo
    · rwa [stepOverPutBack, Action.bind_of_pending hrun] at hinfo
  obtain ⟨u, hrun, hsteps⟩ := stepInstruction_of_granted hstep hstop
  obtain ⟨_, v, hput, hsame, -⟩ := henable.served u (hthen _ u hrun)
  exact ⟨v, (Action.bind_of_ok hrun _).trans hput, hsame.trans hsteps⟩

theorem stepOverBreakpoint_of_granted (hon : s.breakpoints.enabledAt s.debugee.regs.rip)
    (h : Granted env s (stepOverBreakpoint env s).2) {siCode : SiCode}
    (hinfo : (stepOverBreakpoint env s).2.info = .signal .SIGTRAP siCode) :
    ∃ t, stepOverBreakpoint env s = (.ok (), t) ∧ t.singleSteps = s.singleSteps + 1 := by
  have hputBack (lifted : Option Breakpoint) : (stepOverPutBack env lifted).Keeps Grown := by
    cases lifted with
    | none => exact (grown_kept env).pure _
    | some bp =>
        exact (grown_kept env).bind (grown_kept env).stepInstruction fun _ =>
          (grown_kept env).bind ((grown_kept env).enableBreakpoint bp) fun _ => (grown_kept env).pure _
  obtain ⟨hfirst, hrest⟩ := h.bind (grown_kept env).stepOverLift hputBack
  obtain ⟨bp, t, hlift, hsteps⟩ := stepOverLift_of_granted hon hfirst
  have hrun : stepOverBreakpoint env s = stepOverPutBack env (some bp) t :=
    Action.bind_of_ok hlift _
  rw [hrun] at hinfo
  obtain ⟨u, hput, hsteps'⟩ := stepOverPutBack_of_granted (hrest _ t hlift) hinfo
  exact ⟨u, hrun.trans hput, hsteps'.trans (by rw [hsteps])⟩

-- A refused PTRACE_GETREGS goes unnoticed here.
theorem handleStepPass_of_granted (h : Granted env s (handleStepPass env s).2) :
    handleStepPass env s =
      (if (s.breakpoints.lookup s.debugee.regs.rip).enabled then stepOverBreakpoint env
        else stepInstruction env) (s.note .getRegs true) := by
  cases hfault : env.fault s.log.length with
  | false =>
      exact handleStepPass_of_read (attempt_rip_of_ok (getRegsStruct_of_granted hfault))
  | true =>
      have hrun := handleStepPass_of_read (attempt_rip_of_error (getRegsStruct_of_refused hfault))
      have hgrown : Grown (s.note .getRegs false) (handleStepPass env s).2 := by
        rw [hrun]
        split
        · exact (grown_kept env).stepOverBreakpoint _
        · exact (grown_kept env).stepInstruction _
      rw [h _ (Nat.le_refl _) hgrown] at hfault
      cases hfault

-- Both ways to step make one single step.
theorem handleStepPass_steps (h : Granted env s (handleStepPass env s).2) {siCode : SiCode}
    (hinfo : (handleStepPass env s).2.info = .signal .SIGTRAP siCode) :
    ∃ t, handleStepPass env s = (.ok (), t) ∧ t.singleSteps = s.singleSteps + 1 := by
  have hrun := handleStepPass_of_granted h
  have hread : (s.note .getRegs true).singleSteps = s.singleSteps :=
    singleSteps_note s (by decide) true
  have hthen : Granted env (s.note .getRegs true) (handleStepPass env s).2 :=
    h.since (Nat.le_succ s.log.length)
  rw [hrun] at hinfo hthen ⊢
  rw [← hread]
  cases hon : (s.breakpoints.lookup s.debugee.regs.rip).enabled with
  | false =>
      rw [hon] at hinfo hthen
      exact stepInstruction_of_granted hthen hinfo
  | true =>
      rw [hon] at hinfo hthen
      exact stepOverBreakpoint_of_granted (s := s.note .getRegs true)
        ((Table.lookup_enabled_iff _ _).mp hon) hthen hinfo

-- Every stop of the first `times` passes is a SIGTRAP.
def StopsBySigtrap (env : Env κ) (times : Nat) (s : Debugger κ) : Prop :=
  ∀ k < times, ∀ t, handleStepLoop env k s = (.ok (), t) →
    ∃ siCode, (handleStepPass env t).2.info = .signal .SIGTRAP siCode

theorem handleStepLoop_steps {times : Nat} (h : Granted env s (handleStepLoop env times s).2)
    (hstops : StopsBySigtrap env times s) :
    ∃ t, handleStepLoop env times s = (.ok (), t) ∧ t.singleSteps = s.singleSteps + times := by
  induction times generalizing s with
  | zero => exact ⟨s, rfl, rfl⟩
  | succ times ih =>
      have hpass : (handleStepPass env).Keeps Grown := by
        intro u
        have hloop := (grown_kept env).handleStepLoop 1 u
        rwa [handleStepLoop, handleStepLoop, Action.bind_pure_state] at hloop
      obtain ⟨hfirst, hrest⟩ := h.bind hpass fun _ => (grown_kept env).handleStepLoop times
      obtain ⟨siCode, hinfo⟩ := hstops 0 (Nat.succ_pos times) s rfl
      obtain ⟨t, hrun, hsteps⟩ := handleStepPass_steps hfirst hinfo
      have hstops' : StopsBySigtrap env times t := fun k hk u hloop =>
        hstops (k + 1) (Nat.succ_lt_succ hk) u ((Action.bind_of_ok hrun _).trans hloop)
      obtain ⟨u, hloop, hsteps'⟩ := ih (hrest () t hrun) hstops'
      exact ⟨u, (Action.bind_of_ok hrun _).trans hloop, by omega⟩

-- A debugee that nothing but SIGTRAP stops, under a kernel that refuses nothing.
structure Obliging (env : Env κ) : Prop where
  fault : ∀ n, env.fault n = false
  stop : ∀ p info, (cpuStep env p).2 = some info → ∃ siCode, info = .signal .SIGTRAP siCode

namespace Obliging

theorem granted (h : Obliging env) (s t : Debugger κ) : Granted env s t := fun n _ _ => h.fault n

theorem stepInstruction (h : Obliging env) (s : Debugger κ) :
    ∃ siCode, (VDebugger.stepInstruction env s).2.info = .signal .SIGTRAP siCode := by
  have hstep := singleStep_of_granted (h.fault s.log.length)
  obtain ⟨siCode, hstop⟩ : ∃ siCode, (cpuStep env s.debugee).2.getD
      (.signal .SIGTRAP (env.stepCode s.debugee)) = .signal .SIGTRAP siCode := by
    cases hstop : (cpuStep env s.debugee).2 with
    | none => exact ⟨_, rfl⟩
    | some info => exact h.stop _ info hstop
  obtain ⟨log, traps, hwait⟩ := waitAndHandleSignal_granted h.fault
    (s := { s.note .singleStep true with resumed := some .step }) rfl hstop
  refine ⟨siCode, ?_⟩
  rw [VDebugger.stepInstruction, Action.bind_of_ok hstep, hwait]
  exact hstop

theorem stepOverPutBack (h : Obliging env) (bp : Breakpoint) (s : Debugger κ) :
    ∃ siCode, (VDebugger.stepOverPutBack env (some bp) s).2.info = .signal .SIGTRAP siCode := by
  obtain ⟨siCode, hinfo⟩ := h.stepInstruction s
  obtain ⟨t, hrun, -⟩ := stepInstruction_of_granted (h.granted _ _) hinfo
  obtain ⟨_, u, hput, -, hsame⟩ := (Serves.enableBreakpoint bp).served t (h.granted _ _)
  refine ⟨siCode, ?_⟩
  rw [VDebugger.stepOverPutBack, Action.bind_of_ok hrun, Action.bind_of_ok hput]
  rw [hrun] at hinfo
  exact hsame.trans hinfo

theorem stopsBySigtrap (h : Obliging env) (times : Nat) (s : Debugger κ) :
    StopsBySigtrap env times s := by
  intro k _ t _
  rw [handleStepPass_of_granted (h.granted _ _)]
  cases hon : (t.breakpoints.lookup t.debugee.regs.rip).enabled with
  | false => exact h.stepInstruction _
  | true =>
      obtain ⟨bp, u, hlift, -⟩ := stepOverLift_of_granted (s := t.note .getRegs true)
        ((Table.lookup_enabled_iff _ _).mp hon) (h.granted _ _)
      rw [if_pos rfl, stepOverBreakpoint, Action.bind_of_ok hlift]
      exact h.stepOverPutBack bp u

end Obliging

theorem nopEnv_obliging : Obliging nopEnv where
  fault _ := rfl
  stop p info h := by
    unfold cpuStep at h
    split at h
    · cases h
      exact ⟨_, rfl⟩
    · cases h

end Stepping

end VDebugger
