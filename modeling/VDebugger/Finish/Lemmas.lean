import VDebugger.Finish
import VDebugger.Breakpoint.Lemmas

namespace VDebugger

open Machine

variable {κ : Type} (env : Env κ) (s : Debugger κ)

-- Unwinding looks at the debugee and changes nothing.
theorem unwindFrameBase_state : (unwindFrameBase env s).2 = s := by
  simp only [unwindFrameBase, Action.bind_of_ok (Action.fetch_apply s)]
  by_cases hinit : env.unwInitRemote s.debugee < 0
  · rw [Action.bind_of_error (Action.failIf_of hinit 1 s)]
  · rw [Action.bind_of_ok (Action.failIf_of_not hinit 1 s)]
    by_cases hstep : env.unwStep s.debugee < 0
    · rw [Action.bind_of_error (Action.failIf_of hstep 1 s)]
    · rw [Action.bind_of_ok (Action.failIf_of_not hstep 1 s)]
      split
      · rfl
      · by_cases hget : (env.unwGetRegSp s.debugee).1 ≠ 0
        · exact congrArg Prod.snd (Action.bind_of_error (Action.failIf_of hget 1 s) _)
        · exact congrArg Prod.snd (Action.bind_of_ok (Action.failIf_of_not hget 1 s) _)

-- The breakpoint that `step_out` puts at the return address.
def returnBreakpoint (ra : UWORD) : Breakpoint :=
  { s.breakpoints.lookup ra with
    savedData := readWord s.debugee.mem ra.toNat
    enabled := true }

@[simp] theorem returnBreakpoint_memAddr (ra : UWORD) : (returnBreakpoint s ra).memAddr = ra :=
  Table.lookup_memAddr _ _

-- Every return address counts as one that has no breakpoint of the user's.
theorem stepOutArm_eq {frameBase ra : UWORD} {log : List (Request × Bool)}
    (h : ptracePeekData env (frameBase - 8) s = (.ok ra, { s with log })) :
    stepOutArm env frameBase s =
      (do
        let breakpoint ← enableBreakpoint env (s.breakpoints.lookup ra)
        pure (breakpoint, true) : DebuggerM κ (Breakpoint × Bool)) { s with log } :=
  (Action.bind_of_ok h _).trans (getBreakpointAtAddr_then env { s with log } ra _)

theorem stepOutArm_cases (frameBase : UWORD) :
    let ra := readWord s.debugee.mem (frameBase - 8).toNat
    (∃ log, stepOutArm env frameBase s =
        (.ok (returnBreakpoint s ra, true),
          { s.withMem (Function.update s.debugee.mem ra.toNat int3) with log })) ∨
      (∃ n, env.fault n = true) ∧
        ∃ log, stepOutArm env frameBase s = (.error Errors.PTRACE_ERROR.code, { s with log }) := by
  intro ra
  rcases ptracePeekData_cases env s (frameBase - 8) with ⟨log, hpeek⟩ | ⟨hf, log, hpeek⟩
  · have hstart := stepOutArm_eq env s hpeek
    rcases enableBreakpoint_cases env { s with log } (s.breakpoints.lookup ra) with
      ⟨log', henable⟩ | ⟨hf, log', henable⟩
    · refine .inl ⟨log', hstart.trans ((Action.bind_of_ok henable _).trans ?_)⟩
      simp only [Table.lookup_memAddr, returnBreakpoint]
      rfl
    · exact .inr ⟨hf, log', hstart.trans (Action.bind_of_error henable _)⟩
  · exact .inr ⟨hf, log, Action.bind_of_error hpeek _⟩

section Succeeded

variable {env : Env κ} {s} {t : Debugger κ} {frameBase : UWORD}

-- A `finish` that succeeds in a frame with a caller: the return address is armed, the
-- breakpoint at the pc stepped over, and the debugee stopped by a SIGTRAP.
theorem stepOut_ok (hunwind : unwindFrameBase env s = (.ok (some frameBase), s))
    (h : stepOut env s = (.ok (), t)) :
    ∃ log stepped p siCode,
      stepOverBreakpoint env { s.withMem (Function.update s.debugee.mem
        (readWord s.debugee.mem (frameBase - 8).toNat).toNat int3) with log } = (.ok (), stepped) ∧
      runToStop (cpuStep env) env.fuel stepped.debugee = some (p, .signal .SIGTRAP siCode) ∧
      t.debugee.regs = rewind siCode p.regs := by
  unfold stepOut at h
  rw [Action.bind_of_ok hunwind] at h
  dsimp only at h
  rcases stepOutArm_cases env s frameBase with ⟨log, harm⟩ | ⟨_, log, harm⟩
  · rw [Action.bind_of_ok harm] at h
    obtain ⟨_, mid, hrun, h⟩ := Action.bind_eq_ok.mp h
    obtain ⟨_, stepped, hover, hrun⟩ := Action.bind_eq_ok.mp hrun
    obtain ⟨p, siCode, hstop, hdebugee, _⟩ := continue_ok hrun
    refine ⟨log, stepped, p, siCode, hover, hstop, ?_⟩
    obtain ⟨_, last, hdisable, h⟩ := Action.bind_eq_ok.mp h
    rcases disableBreakpoint_cases env mid (returnBreakpoint s _) with ⟨log', hd⟩ | ⟨_, log', hd⟩
    · rw [hd] at hdisable
      cases hdisable
      cases h
      exact congrArg Proc.regs hdebugee
    · exact nomatch hdisable.symm.trans hd
  · rw [Action.bind_of_error harm] at h
    exact nomatch h

theorem stepOverBreakpoint_skipped (h : stepOverBreakpoint env s = (.ok (), t))
    (hoff : ¬s.breakpoints.enabledAt s.debugee.regs.rip) : ∃ log, t = { s with log } := by
  unfold stepOverBreakpoint at h
  rcases stepOverLift_cases env s with ⟨_, log, hlift⟩ | ⟨hon, _⟩ | ⟨_, log, hlift⟩
  · rw [Action.bind_of_ok hlift] at h
    exact ⟨log, (congrArg Prod.snd h).symm⟩
  · exact absurd hon hoff
  · rw [Action.bind_of_error hlift] at h
    exact nomatch h

end Succeeded

end VDebugger
