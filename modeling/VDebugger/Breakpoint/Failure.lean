import VDebugger.Command
import VDebugger.Breakpoint.Resumed

namespace VDebugger

open Machine

section Failure

variable {κ : Type} {env : Env κ} {s t : Debugger κ}

theorem stepOverLift_refused (hon : s.breakpoints.enabledAt s.debugee.regs.rip)
    (h : Refused env s) :
    ∃ log, stepOverLift env s = (.error Errors.PTRACE_ERROR.code, { s with log }) := by
  cases hget : env.fault s.log.length with
  | true =>
      exact ⟨_, Action.bind_of_error (getRegsStruct_of_refused hget) _⟩
  | false =>
      have hpoke : env.fault (s.note .getRegs true).log.length = true := by
        rcases h with h | h
        · rw [hget] at h
          cases h
        · exact h
      have hstart := stepOverLift_eq env s (getRegsStruct_of_granted hget)
      rw [(Table.lookup_enabled_iff _ _).mpr hon, Bool.not_true, if_neg (by decide)] at hstart
      obtain ⟨log, hdisable⟩ := disableBreakpoint_refused
        (s.breakpoints.lookup s.debugee.regs.rip) hpoke
      exact ⟨log, hstart.trans (Action.bind_of_error hdisable _)⟩

-- The debugger once it has lifted the int3 at the pc: two requests on, and with the filed
-- word in the code.
def Debugger.lifted (s : Debugger κ) : Debugger κ :=
  let saved := (s.breakpoints.lookup s.debugee.regs.rip).savedData
  ((s.note .getRegs true).note (.pokeData .disable s.debugee.regs.rip saved) true).withMem
    (writeWord s.debugee.mem s.debugee.pc saved)

theorem stepOverLift_granted (hon : s.breakpoints.enabledAt s.debugee.regs.rip)
    (h : ¬Refused env s) :
    stepOverLift env s =
      (.ok (some { s.breakpoints.lookup s.debugee.regs.rip with enabled := false }), s.lifted) := by
  have hget : env.fault s.log.length = false := Bool.eq_false_iff.mpr fun hf => h (.inl hf)
  have hpoke : env.fault (s.note .getRegs true).log.length = false :=
    Bool.eq_false_iff.mpr fun hf => h (.inr hf)
  have hstart := stepOverLift_eq env s (getRegsStruct_of_granted hget)
  rw [(Table.lookup_enabled_iff _ _).mpr hon, Bool.not_true, if_neg (by decide)] at hstart
  have hdisable := disableBreakpoint_granted (s.breakpoints.lookup s.debugee.regs.rip) hpoke
  refine hstart.trans ((Action.bind_of_ok hdisable _).trans ?_)
  simp only [Table.lookup_memAddr]
  rfl

-- A step over a breakpoint that fails leaves the int3 in memory exactly if it had not
-- come to lift it, or if the stepped instruction itself leaves one there: nothing that
-- comes behind the step puts it back.
theorem failedStep_putsBack_iff {code : Int} (hon : s.breakpoints.enabledAt s.debugee.regs.rip)
    (hpresent : s.debugee.mem s.debugee.pc = int3)
    (hfailed : stepOverBreakpoint env s = (.error code, t)) :
    t.debugee.mem s.debugee.pc = int3 ↔
      Refused env s ∨ steppedMem env s.lifted s.debugee.pc = int3 := by
  by_cases hrefused : Refused env s
  · obtain ⟨log, hlift⟩ := stepOverLift_refused hon hrefused
    have ht : t = { s with log } :=
      congrArg Prod.snd (hfailed.symm.trans (Action.bind_of_error hlift _))
    rw [ht]
    exact iff_of_true hpresent (.inl hrefused)
  · have hlift := stepOverLift_granted hon hrefused
    have hrest := hfailed.symm.trans (Action.bind_of_ok hlift _)
    rcases stepOverPutBack_mem env { s.breakpoints.lookup s.debugee.regs.rip with enabled := false }
        s.lifted with ⟨u, hput, _⟩ | ⟨res, u, _, hput, hmem⟩
    · exact nomatch hrest.trans hput
    · have ht : t = u := congrArg Prod.snd (hrest.trans hput)
      rw [ht, hmem]
      simp only [hrefused, false_or]

end Failure

section Examples

-- Stopped at a breakpoint at 0x2000.
def atBreakpoint : Debugger Unit :=
  { atPrompt (Function.update (fun _ => 0x90) 0x2000 int3) 0x2000 with
    breakpoints := Table.empty.set ⟨0x2000, 0x9090909090909090, true, false⟩ }

theorem atBreakpoint_on : atBreakpoint.breakpoints.enabledAt 0x2000 :=
  (Table.enabledAt_set _ _ rfl _).mpr (.inl rfl)

-- The kernel refuses the second request, which is the poke that lifts the int3.
theorem failedStep_before_lift :
    let env : Env Unit := { nopEnv with fault := fun n => n = 1 }
    (stepOverBreakpoint env atBreakpoint).2.debugee.mem 0x2000 = int3 := by
  intro env
  have herror : (stepOverBreakpoint env atBreakpoint).1 = .error 4 := by
    decide +kernel
  exact (failedStep_putsBack_iff atBreakpoint_on (by decide +kernel)
    (Prod.ext herror rfl)).mpr (.inl (.inr rfl))

-- The instruction under the breakpoint raises a signal: `step_over_breakpoint` returns
-- -1, and the breakpoint that the table still has is gone from memory.
theorem failedStep_on_signal :
    let env : Env Unit :=
      { nopEnv with exec := fun p => (p, some (.signal (.other 11) (.other 1))) }
    let t := (stepOverBreakpoint env atBreakpoint).2
    atBreakpoint.debugee.mem 0x2000 = int3 ∧
      (stepOverBreakpoint env atBreakpoint).1 = .error (-1) ∧
      (t.breakpoints.lookup 0x2000).enabled = true ∧ t.debugee.mem 0x2000 = 0x90 := by
  intro env t
  refine ⟨?_, ?_, ?_, ?_⟩ <;> decide +kernel

end Examples

end VDebugger
