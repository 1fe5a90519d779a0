import VDebugger.Breakpoint.Lemmas

namespace VDebugger

open Machine

variable {κ : Type} {env : Env κ}

theorem stepInstruction_frame : (stepInstruction env).Keeps Frame :=
  Action.Keeps.bind Frame.trans singleStep_frame fun _ => waitAndHandleSignal_frame

theorem Frame.of_log_trans {s t : Debugger κ} {log : List (Request × Bool)}
    (h : Frame { s with log } t) : Frame s t :=
  Frame.trans _ _ _ (Frame.of_log s log) h

-- Where `step_over_breakpoint` can end: there is nothing to step over, it does the
-- whole step, it ends with the int3 still lifted, or it ends before lifting it.
inductive StepOver (s : Debugger κ) : Outcome Unit × Debugger κ → Prop
  | skipped (log : List (Request × Bool)) (hoff : ¬s.breakpoints.enabledAt s.debugee.regs.rip) :
      StepOver s (.ok (), { s with log })
  | stepped (t : Debugger κ) (hon : s.breakpoints.enabledAt s.debugee.regs.rip)
      (h : Frame (s.withMem (Function.update (writeWord s.debugee.mem s.debugee.pc
        (s.breakpoints.lookup s.debugee.regs.rip).savedData) s.debugee.pc int3)) t) :
      StepOver s (.ok (), t)
  | lifted (res : Outcome Unit) (t : Debugger κ) (hres : res ≠ .ok ())
      (hon : s.breakpoints.enabledAt s.debugee.regs.rip)
      (h : Frame (s.withMem (writeWord s.debugee.mem s.debugee.pc
        (s.breakpoints.lookup s.debugee.regs.rip).savedData)) t) :
      StepOver s (res, t)
  | refused (log : List (Request × Bool)) :
      StepOver s (.error Errors.PTRACE_ERROR.code, { s with log })

theorem stepOverPutBack_cases (env : Env κ) (bp : Breakpoint) (s : Debugger κ) :
    (∃ t, stepOverPutBack env (some bp) s = (.ok (), t) ∧
        Frame (s.withMem (Function.update s.debugee.mem bp.memAddr.toNat int3)) t) ∨
      ∃ res t, res ≠ .ok () ∧ stepOverPutBack env (some bp) s = (res, t) ∧ Frame s t := by
  simp only [stepOverPutBack]
  have hstep : Frame s (stepInstruction env s).2 := stepInstruction_frame s
  rcases hs : stepInstruction env s with ⟨_ | res | _, t⟩ <;> rw [hs] at hstep
  · rw [Action.bind_of_ok hs]
    rcases enableBreakpoint_cases env t bp with ⟨log, he⟩ | ⟨_, log, he⟩
    · rw [Action.bind_of_ok he]
      refine .inl ⟨_, rfl, hstep.breakpoints, hstep.loadAddress, hstep.dwarfDbg, hstep.written,
        fun a ha => ?_⟩
      have hc := hstep.mem a ha
      simp only [Debugger.withMem]
      by_cases hpc : a = bp.memAddr.toNat
      · subst a
        simp only [Function.update_self]
      · simpa only [Function.update_of_ne hpc] using hc
    · rw [Action.bind_of_error he]
      exact .inr ⟨.error _, _, by simp, rfl, Frame.trans _ _ _ hstep (Frame.of_log t log)⟩
  · rw [Action.bind_of_error hs]
    exact .inr ⟨.error res, t, by simp, rfl, hstep⟩
  · rw [Action.bind_of_pending hs]
    exact .inr ⟨.pending, t, by simp, rfl, hstep⟩

theorem stepOverBreakpoint_cases (env : Env κ) (s : Debugger κ) :
    StepOver s (stepOverBreakpoint env s) := by
  unfold stepOverBreakpoint
  rcases stepOverLift_cases env s with ⟨hoff, log, h⟩ | ⟨hon, log, h⟩ | ⟨_, log, h⟩
  · rw [Action.bind_of_ok h]
    exact .skipped log hoff
  · rw [Action.bind_of_ok h]
    rcases stepOverPutBack_cases env _ _ with ⟨t, hput, hframe⟩ | ⟨res, t, hres, hput, hframe⟩
    · rw [hput]
      simp only [Table.lookup_memAddr] at hframe
      exact .stepped t hon hframe.of_log_trans
    · rw [hput]
      exact .lifted res t hres hon hframe.of_log_trans
  · rw [Action.bind_of_error h]
    exact .refused log

-- What every command that runs the debugee keeps, whatever becomes of it.
structure Onward (s t : Debugger κ) : Prop where
  breakpoints : t.breakpoints = s.breakpoints
  written : ∀ a, t.written a = false → s.written a = false

theorem Onward.trans (s t u : Debugger κ) (h : Onward s t) (h' : Onward t u) : Onward s u :=
  ⟨h'.breakpoints.trans h.breakpoints, fun a ha => h.written a (h'.written a ha)⟩

theorem Frame.onward {s t : Debugger κ} (h : Frame s t) : Onward s t :=
  ⟨h.breakpoints, h.written⟩

theorem stepOverBreakpoint_onward : (stepOverBreakpoint env).Keeps Onward := by
  intro s
  have hcases := stepOverBreakpoint_cases env s
  generalize stepOverBreakpoint env s = out at hcases ⊢
  cases hcases with
  | skipped log => exact (Frame.of_log s log).onward
  | stepped _ _ h => exact ⟨h.breakpoints, h.written⟩
  | lifted _ _ _ _ h => exact ⟨h.breakpoints, h.written⟩
  | refused log => exact (Frame.of_log s log).onward

theorem handleStepPass_onward : (handleStepPass env).Keeps Onward := by
  intro s
  obtain ⟨read, log, _, heq⟩ := handleStepPass_eq env s
  rw [heq]
  split
  · exact ⟨(stepOverBreakpoint_onward { s with log }).breakpoints,
      (stepOverBreakpoint_onward { s with log }).written⟩
  · exact (stepInstruction_frame { s with log }).of_log_trans.onward

theorem handleStepLoop_onward (times : Nat) : (handleStepLoop env times).Keeps Onward := by
  induction times with
  | zero => exact fun s => (Frame.refl s).onward
  | succ times ih =>
      exact Action.Keeps.bind Onward.trans handleStepPass_onward fun _ => ih

theorem handleContinue_onward : (handleContinue env).Keeps Onward := by
  apply Action.Keeps.bind Onward.trans stepOverBreakpoint_onward
  intro _
  apply Action.Keeps.bind Onward.trans
  · exact fun s => (debugContinue_frame s).onward
  · exact fun _ s => (waitAndHandleSignal_frame s).onward

-- Every enabled entry stands in memory, and the rest of its saved word does too.
def Intact (s : Debugger κ) : Prop :=
  ∀ a, s.breakpoints.enabledAt a →
    readWord s.debugee.mem a.toNat = setLowByte (s.breakpoints.lookup a).savedData int3

-- The debugee has not written the words of the enabled entries.
def WordsUnwritten (table : Table) (t : Debugger κ) : Prop :=
  ∀ a, table.enabledAt a → ∀ i < 8, t.written (a.toNat + i) = false

-- Lifting an int3 and putting it back changes nothing where the saved word is intact.
theorem lift_putBack (mem : Memory) (a : Nat) (word : Word)
    (h : readWord mem a = setLowByte word int3) :
    Function.update (writeWord mem a word) a int3 = mem := by
  funext x
  have hbyte : ∀ i < 8, mem (a + i) = if i = 0 then int3 else byteOf word i := by
    intro i hi
    rw [← byteOf_readWord mem a i hi, h, byteOf_setLowByte _ _ _ hi]
  by_cases hx : x = a
  · subst x
    have h0 := hbyte 0 (by omega)
    rw [Function.update_self]
    simpa using h0.symm
  · rw [Function.update_of_ne hx]
    by_cases hin : a ≤ x ∧ x < a + 8
    · have hb := hbyte (x - a) (by omega)
      rw [show a + (x - a) = x by omega, if_neg (by omega)] at hb
      rw [writeWord_inside _ _ _ _ hin.1 hin.2, hb]
    · exact writeWord_outside _ _ _ _ (by omega)

theorem Intact.of_frame {s t : Debugger κ} (hs : Intact s) (hwords : WordsUnwritten s.breakpoints t)
    (h : Frame s t) : Intact t := by
  intro a ha
  rw [h.breakpoints] at ha ⊢
  rw [← hs a ha]
  exact readWord_congr _ _ _ fun i hi => h.mem _ (hwords a ha i hi)

theorem stepOverBreakpoint_ok_frame {s t : Debugger κ} (hs : Intact s)
    (h : stepOverBreakpoint env s = (.ok (), t)) : Frame s t := by
  have hcases := stepOverBreakpoint_cases env s
  rw [h] at hcases
  cases hcases with
  | skipped log _ => exact Frame.of_log s log
  | stepped _ hon hframe =>
      have hback := lift_putBack s.debugee.mem _ _ (hs _ hon)
      unfold Proc.pc at hframe
      rw [hback] at hframe
      exact hframe
  | lifted _ _ hres => exact absurd rfl hres

theorem handleStepPass_ok_frame {s t : Debugger κ} (hs : Intact s)
    (h : handleStepPass env s = (.ok (), t)) : Frame s t := by
  obtain ⟨read, log, _, heq⟩ := handleStepPass_eq env s
  rw [heq] at h
  split at h
  · exact (stepOverBreakpoint_ok_frame (s := { s with log }) hs h).of_log_trans
  · have hstep : Frame { s with log } (stepInstruction env { s with log }).2 :=
      stepInstruction_frame _
    rw [h] at hstep
    exact hstep.of_log_trans

theorem handleStepLoop_ok_frame {times : Nat} {s t : Debugger κ} (hs : Intact s)
    (hwords : WordsUnwritten s.breakpoints t)
    (h : handleStepLoop env times s = (.ok (), t)) : Frame s t := by
  induction times generalizing s with
  | zero =>
      cases h
      exact Frame.refl _
  | succ times ih =>
      obtain ⟨_, mid, hstep, h⟩ := Action.bind_eq_ok.mp h
      have hmid := handleStepPass_ok_frame hs hstep
      have honward : Onward mid (handleStepLoop env times mid).2 := handleStepLoop_onward times mid
      rw [h] at honward
      have hnow : WordsUnwritten s.breakpoints mid :=
        fun a ha i hi => honward.written _ (hwords a ha i hi)
      have hthen : WordsUnwritten mid.breakpoints t := by rwa [hmid.breakpoints]
      exact Frame.trans _ _ _ hmid (ih (hs.of_frame hnow hmid) hthen h)

theorem handleContinue_ok_frame {s t : Debugger κ} (hs : Intact s)
    (h : handleContinue env s = (.ok (), t)) : Frame s t := by
  obtain ⟨_, mid, hover, h⟩ := Action.bind_eq_ok.mp h
  obtain ⟨_, mid', hcont, h⟩ := Action.bind_eq_ok.mp h
  have h₁ := stepOverBreakpoint_ok_frame hs hover
  have h₂ : Frame mid (debugContinue env mid).2 := debugContinue_frame mid
  have h₃ : Frame mid' (waitAndHandleSignal env mid').2 := waitAndHandleSignal_frame mid'
  rw [hcont] at h₂
  rw [h] at h₃
  exact Frame.trans _ _ _ h₁ (Frame.trans _ _ _ h₂ h₃)

end VDebugger
