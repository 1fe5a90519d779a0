import VDebugger.Ptrace.Protocol

namespace VDebugger

open Machine Action

variable {κ : Type} {env : Env κ} {s t : Debugger κ}

section Breakpoints

theorem getBreakpointAtAddr_atRest (a : WORD) : (getBreakpointAtAddr env a).Preserves AtRest :=
  Preserves.bind Preserves.fetch fun _ => Preserves.pure _

theorem enableBreakpoint_atRest (bp : Breakpoint) : (enableBreakpoint env bp).Preserves AtRest :=
  Preserves.bind (ptracePeekData_atRest _) fun _ =>
    Preserves.bind (ptracePokeData_atRest _ _ _) fun _ => Preserves.pure _

theorem disableBreakpoint_atRest (bp : Breakpoint) : (disableBreakpoint env bp).Preserves AtRest :=
  Preserves.bind (ptracePokeData_atRest _ _ _) fun _ => Preserves.pure _

theorem saveBreakpoint_atRest (bp : Breakpoint) :
    (saveBreakpoint bp : DebuggerM κ Unit).Preserves AtRest :=
  change_atRest (fun _ => rfl) fun _ => rfl

theorem deleteBreakpoint_atRest (bp : Breakpoint) :
    (deleteBreakpoint bp : DebuggerM κ Unit).Preserves AtRest :=
  change_atRest (fun _ => rfl) fun _ => rfl

theorem handleBreakpointAt_atRest (action : BreakpointAction) (a : WORD) :
    (handleBreakpointAt env action a).Preserves AtRest := by
  refine Preserves.bind (getBreakpointAtAddr_atRest a) fun found =>
    Preserves.bind (Preserves.failIf _ _) fun _ => ?_
  cases action with
  | ENABLE_BREAKPOINT =>
      exact Preserves.bind (Preserves.orFail (enableBreakpoint_atRest _) 1) saveBreakpoint_atRest
  | DISABLE_BREAKPOINT =>
      exact Preserves.bind (Preserves.orFail (disableBreakpoint_atRest _) 1) deleteBreakpoint_atRest

theorem stepOverLift_atRest : (stepOverLift env).Preserves AtRest := by
  refine Preserves.bind getRegsStruct_atRest fun regs =>
    Preserves.bind (getBreakpointAtAddr_atRest _) fun found =>
      Preserves.bind (Preserves.failIf _ _) fun _ => ?_
  split
  · exact Preserves.pure _
  · exact Preserves.bind (disableBreakpoint_atRest _) fun _ => Preserves.pure _

end Breakpoints

section Runs

theorem stepInstruction_orderly : Orderly (stepInstruction env) :=
  Meets.bind (resume_meets (.inl rfl) .step) fun _ => waitAndHandleSignal_meets

theorem debugContinue_meets :
    (debugContinue env).Meets AtRest (fun _ => Running) AfterError InOrder :=
  resume_meets (.inr rfl) .cont

theorem stepOverBreakpoint_orderly : Orderly (stepOverBreakpoint env) := by
  refine Orderly.bind (.of_preserves stepOverLift_atRest) fun lifted => ?_
  cases lifted with
  | none => exact .of_preserves (Preserves.pure ())
  | some bp =>
      exact stepInstruction_orderly.bind fun _ =>
        Orderly.bind (.of_preserves (enableBreakpoint_atRest bp)) fun _ =>
          .of_preserves (Preserves.pure ())

theorem handleContinue_orderly : Orderly (handleContinue env) :=
  stepOverBreakpoint_orderly.bind fun _ =>
    Meets.bind debugContinue_meets fun _ => waitAndHandleSignal_meets

theorem handleStepLoop_orderly (times : Nat) : Orderly (handleStepLoop env times) := by
  induction times with
  | zero => exact .of_preserves (Preserves.pure ())
  | succ times ih =>
      refine Orderly.bind ?_ fun _ => ih
      refine Orderly.bind (.of_preserves Preserves.fetch) fun s =>
        Orderly.bind (.of_preserves (Preserves.attempt (getRegValue_atRest _))) fun read =>
          Orderly.bind (.of_preserves (getBreakpointAtAddr_atRest _)) fun found =>
            Orderly.bind (.of_preserves (Preserves.failIf _ _)) fun _ => ?_
      split
      · exact stepOverBreakpoint_orderly
      · exact stepInstruction_orderly

theorem stepOut_orderly : Orderly (stepOut env) := by
  have hunwind : (unwindFrameBase env).Preserves AtRest := by
    refine Preserves.bind Preserves.fetch fun s => Preserves.bind (Preserves.failIf _ _) fun _ =>
      Preserves.bind (Preserves.failIf _ _) fun _ => ?_
    dsimp only
    split
    · exact Preserves.pure _
    · exact Preserves.bind (Preserves.failIf _ _) fun _ => Preserves.pure _
  refine Orderly.bind (.of_preserves hunwind) fun frameBase => ?_
  cases frameBase with
  | none => exact .of_preserves (Preserves.pure ())
  | some frameBase =>
      have harm : (stepOutArm env frameBase).Preserves AtRest :=
        Preserves.bind (ptracePeekData_atRest _) fun _ =>
          Preserves.bind (getBreakpointAtAddr_atRest _) fun _ =>
            Preserves.bind (Preserves.failIf _ _) fun _ =>
              Preserves.bind (enableBreakpoint_atRest _) fun _ => Preserves.pure _
      have hrestore (bp : Breakpoint) (temp : Bool) :
          (stepOutRestore env bp temp).Preserves AtRest := by
        unfold stepOutRestore
        split
        · exact Preserves.bind (disableBreakpoint_atRest bp) fun _ => Preserves.pure ()
        · exact Preserves.pure ()
      exact Orderly.bind (.of_preserves harm) fun armed =>
        handleContinue_orderly.bind fun _ => .of_preserves (hrestore armed.1 armed.2)

theorem stepInLookup_atRest : (stepInLookup env).Preserves AtRest := by
  refine Preserves.bind (getRegValue_atRest _) fun pc => Preserves.bind Preserves.fetch fun s =>
    Preserves.bind (change_atRest (fun _ => rfl) fun _ => rfl) fun _ => ?_
  repeat' split
  all_goals first | exact Preserves.fail _ | exact Preserves.pure _

theorem stepInInstall_atRest (highPc : UWORD) (rows : List LineRow) :
    (stepInInstall env highPc rows).Preserves AtRest := by
  induction rows with
  | nil => exact Preserves.pure ()
  | cons row rows ih =>
      unfold stepInInstall
      split
      · exact Preserves.fail _
      · exact Preserves.fail _
      · split
        · exact Preserves.pure ()
        · refine Preserves.bind Preserves.fetch fun s =>
            Preserves.bind (getBreakpointAtAddr_atRest _) fun found =>
              Preserves.bind (Preserves.failIf _ _) fun _ => ?_
          split
          · exact ih
          · exact Preserves.bind (enableBreakpoint_atRest _) fun bp =>
              Preserves.bind (saveBreakpoint_atRest bp) fun _ => ih

theorem stepInCleanup_atRest (highPc : UWORD) (rows : List LineRow) :
    (stepInCleanup env highPc rows).Preserves AtRest := by
  induction rows with
  | nil => exact Preserves.pure ()
  | cons row rows ih =>
      unfold stepInCleanup
      split
      · exact Preserves.fail _
      · exact Preserves.fail _
      · split
        · exact Preserves.pure ()
        · refine Preserves.bind Preserves.fetch fun s =>
            Preserves.bind (getBreakpointAtAddr_atRest _) fun found =>
              Preserves.bind (Preserves.failIf _ _) fun _ => ?_
          split
          · exact ih
          · exact Preserves.bind (disableBreakpoint_atRest _) fun _ => ih

theorem handleCommand_orderly (command : Command) : Orderly (handleCommand env command) := by
  cases command with
  | enable a => exact .of_preserves (handleBreakpointAt_atRest _ a)
  | disable a => exact .of_preserves (handleBreakpointAt_atRest _ a)
  | writeRegister reg value =>
      refine .of_preserves (Preserves.bind getRegsStruct_atRest fun _ => ?_)
      exact Preserves.bind (Preserves.attempt (setRegValue_atRest reg value)) fun _ =>
        Preserves.pure ()
  | step times => exact handleStepLoop_orderly _
  | cont => exact handleContinue_orderly
  | finish => exact stepOut_orderly
  | next =>
      exact Orderly.bind (.of_preserves stepInLookup_atRest) fun found =>
        Orderly.bind (.of_preserves (stepInInstall_atRest _ _)) fun _ =>
          stepOut_orderly.bind fun _ => .of_preserves (stepInCleanup_atRest _ _)

end Runs

end VDebugger
