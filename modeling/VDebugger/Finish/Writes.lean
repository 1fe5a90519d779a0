import VDebugger.Breakpoint.Resumed
import VDebugger.Finish.Trace

namespace VDebugger

open Machine

variable {κ : Type}

-- What the stepped instruction changes itself, and what the continued program does.
def stepWrites (env : Env κ) (s : Debugger κ) : Writes :=
  .between s.debugee.mem (steppedMem env s)

def continueWrites (env : Env κ) (s : Debugger κ) : Writes :=
  .between s.debugee.mem (continuedMem env s)

-- What the program has written itself when `step_out` ends, and the debugger has not
-- written over since: `earlier` is what it has written before it is continued.
def endWrites (env : Env κ) (breakpoint : Breakpoint) (earlier : Writes) (s : Debugger κ) :
    Writes :=
  match runAndDisarm env breakpoint s with
  | (.ok _, _) => ((continueWrites env s).behind earlier).outside breakpoint.memAddr.toNat 8
  | _ => (continueWrites env s).behind earlier

def runWrites (env : Env κ) (breakpoint : Breakpoint) (s : Debugger κ) : Writes :=
  match stepOverLift env s with
  | (.ok none, t) => endWrites env breakpoint .empty t
  | (.ok (some lifted), t) =>
      match stepOverPutBack env (some lifted) t with
      | (.ok (), u) => endWrites env breakpoint ((stepWrites env t).outside s.debugee.pc 1) u
      | _ => stepWrites env t
  | _ => .empty

def finishWrites (env : Env κ) (s : Debugger κ) : Writes :=
  match unwindFrameBase env s with
  | (.ok (some frameBase), t) =>
      match stepOutArm env frameBase t with
      | (.ok (breakpoint, _), u) => runWrites env breakpoint u
      | _ => .empty
  | _ => .empty

section Memory

variable {env : Env κ}

theorem runAndDisarm_mem (env : Env κ) (breakpoint : Breakpoint) (earlier : Writes) {mem : Memory}
    {s : Debugger κ} (h : s.debugee.mem = earlier.overlay mem) (stepped : Bool) :
    (endStage env breakpoint stepped s = .restored stepped ∧
      (runAndDisarm env breakpoint s).2.debugee.mem =
        (endWrites env breakpoint earlier s).overlay
          (writeWord mem breakpoint.memAddr.toNat breakpoint.savedData)) ∨
      (endStage env breakpoint stepped s = if stepped then .putBack else .started) ∧
        (runAndDisarm env breakpoint s).2.debugee.mem =
          (endWrites env breakpoint earlier s).overlay mem := by
  have hrun := continue_mem env s
  have hover : continuedMem env s = ((continueWrites env s).behind earlier).overlay mem := by
    rw [Writes.behind_overlay, ← h, continueWrites, Writes.between_overlay]
  have hsame : runAndDisarm env breakpoint s =
      ((do debugContinue env; waitAndHandleSignal env) >>= fun _ =>
        disableBreakpoint env breakpoint : DebuggerM κ Breakpoint) s :=
    (congrFun (Action.bind_assoc _ _ _) s).symm
  unfold endStage endWrites
  rcases hc : (do debugContinue env; waitAndHandleSignal env : DebuggerM κ Unit) s with
    ⟨_ | _ | _, t⟩ <;> rw [hc] at hrun
  · rw [Action.bind_of_ok hc] at hsame
    rcases disableBreakpoint_cases env t breakpoint with ⟨log, hd⟩ | ⟨_, log, hd⟩
    · rw [hsame, hd]
      refine .inl ⟨rfl, ?_⟩
      rw [← Writes.writeWord_overlay, ← hover, ← hrun]
      rfl
    · rw [hsame, hd]
      exact .inr ⟨rfl, hrun.trans hover⟩
  · rw [Action.bind_of_error hc] at hsame
    rw [hsame]
    exact .inr ⟨rfl, hrun.trans hover⟩
  · rw [Action.bind_of_pending hc] at hsame
    rw [hsame]
    exact .inr ⟨rfl, hrun.trans hover⟩

theorem stepOutRest_mem (breakpoint : Breakpoint) (s : Debugger κ) :
    ((do
      stepOutRun env
      stepOutRestore env breakpoint true : DebuggerM κ Unit) s).2.debugee.mem =
        (runWrites env breakpoint s).overlay ((runStage env breakpoint s).memory s.debugee.mem
          s.debugee.pc (s.breakpoints.lookup s.debugee.regs.rip).savedData breakpoint) := by
  rw [stepOutRest_state]
  unfold runWrites runStage
  rcases stepOverLift_cases env s with ⟨_, log, h⟩ | ⟨_, log, h⟩ | ⟨_, log, h⟩
  · have hput : stepOverPutBack env none { s with log } = (.ok (), { s with log }) := rfl
    rw [Action.bind_of_ok h, h, Action.bind_of_ok hput]
    dsimp only
    rcases runAndDisarm_mem env (s := { s with log }) breakpoint .empty
      (Writes.empty_overlay _).symm false with ⟨hstage, hmem⟩ | ⟨hstage, hmem⟩
    all_goals
      rw [hmem, hstage]
      rfl
  · rw [Action.bind_of_ok h, h]
    dsimp only
    generalize hlifted : ({ s.withMem (writeWord s.debugee.mem s.debugee.pc
      (s.breakpoints.lookup s.debugee.regs.rip).savedData) with log } : Debugger κ) = lifted
    have hword : lifted.debugee.mem = writeWord s.debugee.mem s.debugee.pc
        (s.breakpoints.lookup s.debugee.regs.rip).savedData := by
      rw [← hlifted]
      rfl
    have hstep : steppedMem env lifted = (stepWrites env lifted).overlay lifted.debugee.mem :=
      (Writes.between_overlay _ _).symm
    rcases stepOverPutBack_mem env
        { s.breakpoints.lookup s.debugee.regs.rip with enabled := false } lifted with
      ⟨t, hput, hback⟩ | ⟨res, t, hres, hput, hmem⟩
    · simp only [Table.lookup_memAddr] at hback
      rw [hstep, Writes.update_overlay, hword] at hback
      rw [hput, Action.bind_of_ok hput]
      dsimp only
      rcases runAndDisarm_mem env breakpoint _ hback true with ⟨hstage, hmem⟩ | ⟨hstage, hmem⟩
      all_goals
        rw [hmem, hstage]
        rfl
    · rw [hstep, hword] at hmem
      rw [hput]
      cases res with
      | ok value => exact absurd rfl hres
      | error code => rwa [Action.bind_of_error hput]
      | pending => rwa [Action.bind_of_pending hput]
  · rw [Action.bind_of_error h, h]
    rfl

-- Every byte behind `step_out`: what the program has written itself, over what the
-- debugger's own writes make of the memory.
theorem stepOut_mem (env : Env κ) (s : Debugger κ) :
    (stepOut env s).2.debugee.mem =
      (finishWrites env s).overlay ((finishStage env s).memory s) := by
  have hstate := unwindFrameBase_state env s
  unfold stepOut finishWrites finishStage
  rcases hunwind : unwindFrameBase env s with ⟨_ | _ | _, t⟩ <;> rw [hunwind] at hstate <;>
    subst hstate
  · next frameBase =>
    rw [Action.bind_of_ok hunwind]
    cases frameBase with
    | none => rfl
    | some frameBase =>
        dsimp only
        rcases stepOutArm_cases env t frameBase with ⟨log, harm⟩ | ⟨_, log, harm⟩
        · rw [Action.bind_of_ok harm, harm]
          dsimp only [FinishStage.memory]
          rw [returnBreakpoint_memAddr]
          exact stepOutRest_mem _ _
        · rw [Action.bind_of_error harm, harm]
          rfl
  · rw [Action.bind_of_error hunwind]
    rfl
  · rw [Action.bind_of_pending hunwind]
    rfl

end Memory

section Untouched

variable {env : Env κ} {x : Nat}

-- A byte that no instruction changes is none that the program writes.
theorem cpuStep_mem (h : ∀ p, (env.exec p).1.mem x = p.mem x) (p : Proc κ) :
    (cpuStep env p).1.mem x = p.mem x := by
  unfold cpuStep
  split
  · rfl
  · exact h p

theorem runToStop_mem (h : ∀ p, (env.exec p).1.mem x = p.mem x) {fuel : Nat} {p q : Proc κ}
    {stop : Stop} (hrun : runToStop (cpuStep env) fuel p = some (q, stop)) : q.mem x = p.mem x := by
  have hstops := stopsAt_of_runToStop hrun
  clear hrun
  induction hstops with
  | @now p q stop hstep =>
      have hsame := cpuStep_mem h p
      rwa [hstep] at hsame
  | @later p q _ _ hstep _ ih =>
      have hsame := cpuStep_mem h p
      rw [hstep] at hsame
      exact ih.trans hsame

theorem stepWrites_untouched (h : ∀ p, (env.exec p).1.mem x = p.mem x) (s : Debugger κ) :
    stepWrites env s x = none := by
  refine if_pos ?_
  unfold steppedMem
  split
  · rfl
  · exact cpuStep_mem h _

theorem continueWrites_untouched (h : ∀ p, (env.exec p).1.mem x = p.mem x) (s : Debugger κ) :
    continueWrites env s x = none := by
  refine if_pos ?_
  unfold continuedMem
  split
  · rfl
  · cases hrun : runToStop (cpuStep env) env.fuel s.debugee with
    | none => rfl
    | some out => exact runToStop_mem h hrun

theorem endWrites_untouched (h : ∀ p, (env.exec p).1.mem x = p.mem x) (breakpoint : Breakpoint)
    {earlier : Writes} (hearlier : earlier x = none) (s : Debugger κ) :
    endWrites env breakpoint earlier s x = none := by
  have hboth : (continueWrites env s).behind earlier x = none := by
    rw [Writes.behind, continueWrites_untouched h, hearlier]
    rfl
  unfold endWrites
  rcases runAndDisarm env breakpoint s with ⟨_ | _ | _, t⟩
  · exact ite_eq_left_iff.mpr fun _ => hboth
  · exact hboth
  · exact hboth

theorem runWrites_untouched (h : ∀ p, (env.exec p).1.mem x = p.mem x) (breakpoint : Breakpoint)
    (s : Debugger κ) : runWrites env breakpoint s x = none := by
  unfold runWrites
  rcases stepOverLift env s with ⟨⟨_ | lifted⟩ | _ | _, t⟩
  · exact endWrites_untouched h breakpoint rfl t
  · dsimp only
    rcases stepOverPutBack env (some lifted) t with ⟨_ | _ | _, u⟩
    · refine endWrites_untouched h breakpoint (ite_eq_left_iff.mpr fun _ => ?_) u
      exact stepWrites_untouched h t
    · exact stepWrites_untouched h t
    · exact stepWrites_untouched h t
  · rfl
  · rfl

theorem finishWrites_untouched (h : ∀ p, (env.exec p).1.mem x = p.mem x) (s : Debugger κ) :
    finishWrites env s x = none := by
  unfold finishWrites
  rcases unwindFrameBase env s with ⟨⟨_ | frameBase⟩ | _ | _, t⟩
  · rfl
  · dsimp only
    rcases stepOutArm env frameBase t with ⟨⟨breakpoint, temp⟩ | _ | _, u⟩
    · exact runWrites_untouched h breakpoint u
    · rfl
    · rfl
  · rfl
  · rfl

end Untouched

end VDebugger
