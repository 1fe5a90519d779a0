import VDebugger.Command.Kept
import VDebugger.Finish.Trace

namespace VDebugger

open Machine

variable {κ : Type}

-- Where the debugger has set an int3 so far, the latest first.
def Debugger.inserted (s : Debugger κ) : List UWORD :=
  s.log.filterMap fun (req, granted) => if granted then req.inserts else none

theorem inserted_note (s : Debugger κ) (req : Request) (granted : Bool)
    (hquiet : req.inserts = none) : (s.note req granted).inserted = s.inserted := by
  have hnone : (if granted then req.inserts else none) = none := by
    rw [hquiet, ite_self]
  exact List.filterMap_cons_none hnone

theorem inserted_quiet (env : Env κ) : Quiet env fun s t => t.inserted = s.inserted where
  refl _ := rfl
  trans _ _ _ h h' := h'.trans h
  note := inserted_note
  withMem _ _ := rfl
  withRegs _ _ := rfl
  resume _ _ := rfl
  settle _ _ _ := rfl
  search _ _ := rfl
  trap siCode := by
    show (handleSigtrap env siCode).Keeps fun s t => t.inserted = s.inserted
    apply handleSigtrap_keeps
    · exact fun s => rfl
    · exact fun s t u h h' => h'.trans h
    · exact inserted_note
    · exact fun s regs => rfl

section Inserted

variable (env : Env κ) (s : Debugger κ)

theorem pokeEnable_inserted (a data : UWORD) :
    (∃ t, ptracePokeData env .enable a data s = (.ok (), t) ∧ t.inserted = a :: s.inserted) ∨
      ∃ t, ptracePokeData env .enable a data s = (.error Errors.PTRACE_ERROR.code, t) ∧
        t.inserted = s.inserted := by
  cases hfault : env.fault s.log.length with
  | false => exact .inl ⟨_, Action.bind_of_ok (ptrace_of_granted hfault _) _, rfl⟩
  | true => exact .inr ⟨_, Action.bind_of_error (ptrace_of_refused hfault _) _, rfl⟩

theorem enableBreakpoint_inserted (bp : Breakpoint) :
    (∃ enabled t, enableBreakpoint env bp s = (.ok enabled, t) ∧
        t.inserted = bp.memAddr :: s.inserted) ∨
      ∃ t, enableBreakpoint env bp s = (.error Errors.PTRACE_ERROR.code, t) ∧
        t.inserted = s.inserted := by
  have hpeek := (inserted_quiet env).peekData bp.memAddr s
  rcases ptracePeekData_cases env s bp.memAddr with ⟨log, h⟩ | ⟨_, log, h⟩ <;> rw [h] at hpeek
  · rcases pokeEnable_inserted env { s with log } bp.memAddr
      (setLowByte (readWord s.debugee.mem bp.memAddr.toNat) int3) with ⟨t, h', ht⟩ | ⟨t, h', ht⟩
    · refine .inl ⟨_, t, (Action.bind_of_ok h _).trans (Action.bind_of_ok h' _), ?_⟩
      rw [ht, hpeek]
    · exact .inr ⟨t, (Action.bind_of_ok h _).trans (Action.bind_of_error h' _), ht.trans hpeek⟩
  · exact .inr ⟨_, Action.bind_of_error h _, hpeek⟩

-- A step over a breakpoint sets no int3 but the one it has lifted.
theorem stepOverBreakpoint_inserted :
    ∃ again, (stepOverBreakpoint env s).2.inserted = again ++ s.inserted ∧
      ∀ a ∈ again, s.breakpoints.enabledAt a := by
  have hquiet := (inserted_quiet env).stepOverLift s
  unfold stepOverBreakpoint
  rcases stepOverLift_cases env s with ⟨_, log, h⟩ | ⟨hon, log, h⟩ | ⟨_, log, h⟩ <;>
    rw [h] at hquiet
  · rw [Action.bind_of_ok h]
    exact ⟨[], hquiet, fun _ ha => nomatch ha⟩
  · rw [Action.bind_of_ok h]
    dsimp only [stepOverPutBack]
    generalize { s.withMem (writeWord s.debugee.mem s.debugee.pc
      (s.breakpoints.lookup s.debugee.regs.rip).savedData) with log } = lifted at hquiet ⊢
    have hstep := (inserted_quiet env).stepInstruction lifted
    rcases hs : stepInstruction env lifted with ⟨_ | _ | _, t⟩ <;> rw [hs] at hstep
    · rw [Action.bind_of_ok hs]
      rcases enableBreakpoint_inserted env t
        { s.breakpoints.lookup s.debugee.regs.rip with enabled := false } with
        ⟨_, u, hu, hin⟩ | ⟨u, hu, hin⟩
      · rw [Action.bind_of_ok hu]
        simp only [Table.lookup_memAddr] at hin
        refine ⟨[s.debugee.regs.rip], hin.trans (congrArg _ (hstep.trans hquiet)), ?_⟩
        intro a ha
        rwa [List.mem_singleton.mp ha]
      · rw [Action.bind_of_error hu]
        exact ⟨[], hin.trans (hstep.trans hquiet), fun _ ha => nomatch ha⟩
    · rw [Action.bind_of_error hs]
      exact ⟨[], hstep.trans hquiet, fun _ ha => nomatch ha⟩
    · rw [Action.bind_of_pending hs]
      exact ⟨[], hstep.trans hquiet, fun _ ha => nomatch ha⟩
  · rw [Action.bind_of_error h]
    exact ⟨[], hquiet, fun _ ha => nomatch ha⟩

theorem stepOutArm_inserted (frameBase : UWORD) :
    let ra := readWord s.debugee.mem (frameBase - 8).toNat
    (∃ armed t, stepOutArm env frameBase s = (.ok armed, t) ∧ t.inserted = ra :: s.inserted) ∨
      ∃ res t, stepOutArm env frameBase s = (.error res, t) ∧ t.inserted = s.inserted := by
  intro ra
  have hpeek := (inserted_quiet env).peekData (frameBase - 8) s
  rcases ptracePeekData_cases env s (frameBase - 8) with ⟨log, h⟩ | ⟨_, log, h⟩ <;> rw [h] at hpeek
  · have hstart := stepOutArm_eq env s h
    rcases enableBreakpoint_inserted env { s with log } (s.breakpoints.lookup ra) with
      ⟨bp, t, ht, hin⟩ | ⟨t, ht, hin⟩
    · refine .inl ⟨_, t, hstart.trans (Action.bind_of_ok ht _), ?_⟩
      rw [hin, hpeek, Table.lookup_memAddr]
    · exact .inr ⟨_, t, hstart.trans (Action.bind_of_error ht _), hin.trans hpeek⟩
  · exact .inr ⟨_, _, Action.bind_of_error h _, hpeek⟩

-- What `step_out` does from the step over the breakpoint on sets no other int3.
theorem stepOutRest_inserted (bp : Breakpoint) :
    ∃ again, ((do
        stepOutRun env
        stepOutRestore env bp true : DebuggerM κ Unit) s).2.inserted = again ++ s.inserted ∧
      ∀ a ∈ again, s.breakpoints.enabledAt a := by
  have hquiet := inserted_quiet env
  have hrest : (do
      debugContinue env
      waitAndHandleSignal env
      stepOutRestore env bp true : DebuggerM κ Unit).Keeps fun s t => t.inserted = s.inserted := by
    apply hquiet.bind hquiet.debugContinue
    intro _
    apply hquiet.bind hquiet.waitAndHandleSignal
    intro _
    exact hquiet.bind (hquiet.disableBreakpoint bp) fun _ => hquiet.pure _
  obtain ⟨again, hover, hon⟩ := stepOverBreakpoint_inserted env s
  have hafter := Action.Keeps.after hquiet.refl (x := stepOverBreakpoint env) (fun _ => hrest) s
  refine ⟨again, Eq.trans ?_ (hafter.trans hover), hon⟩
  simp only [stepOutRun, Action.bind_assoc]

theorem stepOut_inserted :
    match finishStage env s with
    | .unarmed => (stepOut env s).2.inserted = s.inserted
    | .armed ra _ => ∃ again, (stepOut env s).2.inserted = again ++ ra :: s.inserted ∧
        ∀ a ∈ again, s.breakpoints.enabledAt a := by
  have hstate := unwindFrameBase_state env s
  unfold stepOut finishStage
  rcases hunwind : unwindFrameBase env s with ⟨frameBase | _ | _, t⟩ <;> rw [hunwind] at hstate <;>
    subst hstate
  · rw [Action.bind_of_ok hunwind]
    cases frameBase with
    | none => rfl
    | some frameBase =>
        dsimp only
        have harm := stepOutArm_inserted env t frameBase
        rcases stepOutArm_cases env t frameBase with ⟨log, h⟩ | ⟨_, log, h⟩
        · rw [Action.bind_of_ok h, h]
          dsimp only
          rcases harm with ⟨armed, u, hu, hin⟩ | ⟨res, u, hu, _⟩
          · rw [h] at hu
            cases hu
            obtain ⟨again, hrest, hon⟩ := stepOutRest_inserted env
              { t.withMem (Function.update t.debugee.mem
                (readWord t.debugee.mem (frameBase - 8).toNat).toNat int3) with log }
              (returnBreakpoint t (readWord t.debugee.mem (frameBase - 8).toNat))
            refine ⟨again, hrest.trans ?_, hon⟩
            rw [hin, returnBreakpoint_memAddr]
          · exact nomatch h.symm.trans hu
        · rw [Action.bind_of_error h, h]
          dsimp only
          rcases harm with ⟨armed, u, hu, _⟩ | ⟨res, u, hu, hin⟩
          · exact nomatch h.symm.trans hu
          · rw [h] at hu
            cases hu
            exact hin
  · rw [Action.bind_of_error hunwind]
  · rw [Action.bind_of_pending hunwind]

end Inserted

end VDebugger
