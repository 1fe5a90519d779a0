import VDebugger.Command.Kept
import VDebugger.Breakpoint.Lemmas
import VDebugger.Machine.Writes

namespace VDebugger

open Machine

variable {κ : Type}

instance (env : Env κ) (s : Debugger κ) : Decidable (Refused env s) :=
  inferInstanceAs (Decidable (_ ∨ _))

-- The memory behind a single step and its `waitpid`, either of which may be refused: all
-- that is done to the memory then is what the instruction does to it.
def steppedMem (env : Env κ) (s : Debugger κ) : Memory :=
  if Refused env s then s.debugee.mem else (cpuStep env s.debugee).1.mem

-- The same for a debugee that is continued.
def continuedMem (env : Env κ) (s : Debugger κ) : Memory :=
  if Refused env s then s.debugee.mem
  else
    match runToStop (cpuStep env) env.fuel s.debugee with
    | none => s.debugee.mem
    | some (p, _) => p.mem

section Resumed

variable {env : Env κ}

-- What becomes of the memory is left to others.
def SameMem (s t : Debugger κ) : Prop := t.debugee.mem = s.debugee.mem

theorem SameMem.refl (s : Debugger κ) : SameMem s s := Eq.refl _

theorem SameMem.trans (s t u : Debugger κ) (h : SameMem s t) (h' : SameMem t u) : SameMem s u :=
  Eq.trans h' h

theorem handleSigtrap_sameMem (siCode : SiCode) : (handleSigtrap env siCode).Keeps SameMem := by
  apply handleSigtrap_keeps
  · exact SameMem.refl
  · exact SameMem.trans
  · exact fun s req granted _ => rfl
  · exact fun s regs => rfl

theorem getSiginfo_sameMem : (getSiginfo env).Keeps SameMem := by
  have hptrace : (ptrace env .getSiginfo).Keeps SameMem := by
    intro s
    rcases ptrace_cases env s .getSiginfo with ⟨log, h⟩ | ⟨_, log, h⟩
    all_goals
      rw [h]
      rfl
  exact Action.Keeps.bind SameMem.trans hptrace fun _ => SameMem.refl

-- Of a wait only the run itself changes the memory.
theorem waitAndHandleSignal_mem (env : Env κ) (s : Debugger κ) :
    SameMem (waitpid env s).2 (waitAndHandleSignal env s).2 := by
  have hwait : SameMem (waitpid env s).2 (waitForSignal env s).2 := by
    refine Action.Keeps.after SameMem.refl (fun _ => ?_) s
    exact fun s => SameMem.refl s
  have hhandled : SameMem (waitForSignal env s).2 (waitAndHandleSignal env s).2 := by
    refine Action.Keeps.after SameMem.refl (fun _ => ?_) s
    apply Action.Keeps.bind SameMem.trans getSiginfo_sameMem
    intro info
    split
    · exact handleSigtrap_sameMem _
    · exact SameMem.refl
  exact SameMem.trans _ _ _ hwait hhandled

theorem waitpid_refused {s : Debugger κ} (h : env.fault s.log.length = true) :
    SameMem s (waitpid env s).2 := by
  have hrequest : request env .waitpid s = (.ok false, s.note .waitpid false) := by
    simp only [request, h, Bool.not_true]
  rw [waitpid, Action.bind_of_ok hrequest]
  rfl

theorem waitpid_granted {s : Debugger κ} (h : env.fault s.log.length = false) :
    waitpid env s = awaitStop env (s.note .waitpid true) := by
  have hrequest : request env .waitpid s = (.ok true, s.note .waitpid true) := by
    simp only [request, h, Bool.not_false]
  rw [waitpid, Action.bind_of_ok hrequest]
  rfl

theorem stepInstruction_mem (env : Env κ) (s : Debugger κ) :
    (stepInstruction env s).2.debugee.mem = steppedMem env s := by
  unfold steppedMem
  cases hstep : env.fault s.log.length with
  | true =>
      have hrefused : singleStep env s = _ := Action.bind_of_error (ptrace_of_refused hstep _) _
      rw [if_pos (.inl hstep), stepInstruction, Action.bind_of_error hrefused]
      rfl
  | false =>
      rw [stepInstruction, Action.bind_of_ok (singleStep_of_granted hstep)]
      refine Eq.trans (waitAndHandleSignal_mem env _) ?_
      cases hwait : env.fault (s.log.length + 1) with
      | true =>
          rw [if_pos (.inr hwait)]
          exact waitpid_refused hwait
      | false =>
          rw [if_neg (by simp [Refused, hstep, hwait]), waitpid_granted hwait]
          rfl

-- A step over a breakpoint from where the int3 is lifted: it comes back only where the
-- whole step succeeds.
theorem stepOverPutBack_mem (env : Env κ) (bp : Breakpoint) (s : Debugger κ) :
    (∃ t, stepOverPutBack env (some bp) s = (.ok (), t) ∧
        t.debugee.mem = Function.update (steppedMem env s) bp.memAddr.toNat int3) ∨
      ∃ res t, res ≠ .ok () ∧ stepOverPutBack env (some bp) s = (res, t) ∧
        t.debugee.mem = steppedMem env s := by
  have hmem := stepInstruction_mem env s
  simp only [stepOverPutBack]
  rcases hs : stepInstruction env s with ⟨_ | code | _, t⟩ <;> rw [hs] at hmem
  · rw [Action.bind_of_ok hs, ← hmem]
    rcases enableBreakpoint_cases env t bp with ⟨log, he⟩ | ⟨_, log, he⟩
    · rw [Action.bind_of_ok he]
      exact .inl ⟨_, rfl, rfl⟩
    · rw [Action.bind_of_error he]
      exact .inr ⟨_, _, by simp, rfl, rfl⟩
  · rw [Action.bind_of_error hs]
    exact .inr ⟨_, _, by simp, rfl, hmem⟩
  · rw [Action.bind_of_pending hs]
    exact .inr ⟨_, _, by simp, rfl, hmem⟩

theorem continue_mem (env : Env κ) (s : Debugger κ) :
    ((do debugContinue env; waitAndHandleSignal env : DebuggerM κ Unit) s).2.debugee.mem =
      continuedMem env s := by
  unfold continuedMem
  cases hcont : env.fault s.log.length with
  | true =>
      have hrefused : debugContinue env s = _ := Action.bind_of_error (ptrace_of_refused hcont _) _
      rw [if_pos (.inl hcont), Action.bind_of_error hrefused]
      rfl
  | false =>
      rw [Action.bind_of_ok (debugContinue_of_granted hcont)]
      refine Eq.trans (waitAndHandleSignal_mem env _) ?_
      cases hwait : env.fault (s.log.length + 1) with
      | true =>
          rw [if_pos (.inr hwait)]
          exact waitpid_refused hwait
      | false =>
          rw [if_neg (by simp [Refused, hcont, hwait]), waitpid_granted hwait]
          simp only [awaitStop, Debugger.note]
          cases runToStop (cpuStep env) env.fuel s.debugee <;> rfl

end Resumed

end VDebugger
