import VDebugger.Command
import VDebugger.Breakpoint.Stepping
import VDebugger.Finish.Lemmas

namespace VDebugger

open Machine

variable {κ : Type}

-- How far `step_out` comes once the return address is armed: not even past the lift of
-- the breakpoint at the pc, to the lift, to where that breakpoint is back, or to its
-- end, with a step over a breakpoint or without one.
inductive RunStage where
  | started
  | lifted
  | putBack
  | restored (stepped : Bool)
  deriving DecidableEq, Repr

inductive FinishStage where
  | unarmed
  | armed (ra : UWORD) (stage : RunStage)
  deriving DecidableEq, Repr

-- What is left of `step_out` when the debugee is off its breakpoint.
def runAndDisarm (env : Env κ) (breakpoint : Breakpoint) : DebuggerM κ Breakpoint := do
  debugContinue env
  waitAndHandleSignal env
  disableBreakpoint env breakpoint

def endStage (env : Env κ) (breakpoint : Breakpoint) (stepped : Bool) (s : Debugger κ) : RunStage :=
  match runAndDisarm env breakpoint s with
  | (.ok _, _) => .restored stepped
  | _ => if stepped then .putBack else .started

def runStage (env : Env κ) (breakpoint : Breakpoint) (s : Debugger κ) : RunStage :=
  match stepOverLift env s with
  | (.ok none, t) => endStage env breakpoint false t
  | (.ok (some lifted), t) =>
      match stepOverPutBack env (some lifted) t with
      | (.ok (), u) => endStage env breakpoint true u
      | _ => .lifted
  | _ => .started

def finishStage (env : Env κ) (s : Debugger κ) : FinishStage :=
  match unwindFrameBase env s with
  | (.ok (some frameBase), t) =>
      match stepOutArm env frameBase t with
      | (.ok (breakpoint, _), u) => .armed breakpoint.memAddr (runStage env breakpoint u)
      | _ => .unarmed
  | _ => .unarmed

-- What the debugger's own writes make of the memory up to each stage: `saved` is the
-- word filed for the breakpoint at `pc`.
def RunStage.memory (mem : Memory) (pc : Nat) (saved : Word) (breakpoint : Breakpoint) :
    RunStage → Memory
  | .started => mem
  | .lifted => writeWord mem pc saved
  | .putBack => Function.update (writeWord mem pc saved) pc int3
  | .restored stepped =>
      writeWord (if stepped then Function.update (writeWord mem pc saved) pc int3 else mem)
        breakpoint.memAddr.toNat breakpoint.savedData

def FinishStage.memory (s : Debugger κ) : FinishStage → Memory
  | .unarmed => s.debugee.mem
  | .armed ra stage =>
      stage.memory (Function.update s.debugee.mem ra.toNat int3) s.debugee.pc
        (s.breakpoints.lookup s.debugee.regs.rip).savedData (returnBreakpoint s ra)

section Stages

variable {κ : Type} {env : Env κ} {code : Set Nat} {s t : Debugger κ}

theorem Frame.withMem {m n : Memory} (h : Frame s t)
    (hmem : ∀ a, t.written a = false → n a = m a) : Frame (s.withMem m) (t.withMem n) :=
  ⟨h.breakpoints, h.loadAddress, h.dwarfDbg, h.written, hmem⟩

theorem Frame.writeWord (h : Frame s t) (a : Nat) (word : Word) :
    Frame (s.withMem (writeWord s.debugee.mem a word))
      (t.withMem (Machine.writeWord t.debugee.mem a word)) := by
  refine h.withMem fun x hx => ?_
  unfold Machine.writeWord
  split
  · rfl
  · exact h.mem x hx

theorem endStage_frame (env : Env κ) (s : Debugger κ) (breakpoint : Breakpoint) (stepped : Bool) :
    (endStage env breakpoint stepped s = .restored stepped ∧
      Frame (s.withMem (writeWord s.debugee.mem breakpoint.memAddr.toNat breakpoint.savedData))
        (runAndDisarm env breakpoint s).2) ∨
      (endStage env breakpoint stepped s = if stepped then .putBack else .started) ∧
        Frame s (runAndDisarm env breakpoint s).2 := by
  have hcont : Frame s (debugContinue env s).2 := debugContinue_frame s
  unfold endStage runAndDisarm
  rcases hc : debugContinue env s with ⟨_ | _ | _, t⟩ <;> rw [hc] at hcont
  · rw [Action.bind_of_ok hc]
    have hwait : Frame s (waitAndHandleSignal env t).2 :=
      Frame.trans _ _ _ hcont (waitAndHandleSignal_frame t)
    rcases hw : waitAndHandleSignal env t with ⟨_ | _ | _, u⟩ <;> rw [hw] at hwait
    · rw [Action.bind_of_ok hw]
      rcases disableBreakpoint_cases env u breakpoint with ⟨log, hd⟩ | ⟨_, log, hd⟩
      · rw [hd]
        exact .inl ⟨rfl, Frame.trans _ _ _ (hwait.writeWord _ _) (Frame.of_log _ log)⟩
      · rw [hd]
        exact .inr ⟨rfl, Frame.trans _ _ _ hwait (Frame.of_log u log)⟩
    · rw [Action.bind_of_error hw]
      exact .inr ⟨rfl, hwait⟩
    · rw [Action.bind_of_pending hw]
      exact .inr ⟨rfl, hwait⟩
  · rw [Action.bind_of_error hc]
    exact .inr ⟨rfl, hcont⟩
  · rw [Action.bind_of_pending hc]
    exact .inr ⟨rfl, hcont⟩

theorem stepOutRest_state (breakpoint : Breakpoint) :
    ((do
      stepOutRun env
      stepOutRestore env breakpoint true : DebuggerM κ Unit) s).2 =
        ((do
          let lifted ← stepOverLift env
          stepOverPutBack env lifted
          runAndDisarm env breakpoint : DebuggerM κ Breakpoint) s).2 := by
  refine Eq.trans ?_ (Action.bind_pure_state _ () s)
  simp only [stepOutRun, stepOutRestore, stepOverBreakpoint, runAndDisarm, Action.bind_assoc,
    if_true]

theorem runStage_frame (env : Env κ) (s : Debugger κ) (breakpoint : Breakpoint) :
    Frame
      (s.withMem ((runStage env breakpoint s).memory s.debugee.mem s.debugee.pc
        (s.breakpoints.lookup s.debugee.regs.rip).savedData breakpoint))
      ((do
        let lifted ← stepOverLift env
        stepOverPutBack env lifted
        runAndDisarm env breakpoint : DebuggerM κ Breakpoint) s).2 := by
  unfold runStage
  rcases stepOverLift_cases env s with ⟨_, log, h⟩ | ⟨_, log, h⟩ | ⟨_, log, h⟩
  · have hput : stepOverPutBack env none { s with log } = (.ok (), { s with log }) := rfl
    rw [Action.bind_of_ok h, h, Action.bind_of_ok hput]
    rcases endStage_frame env { s with log } breakpoint false with ⟨he, hf⟩ | ⟨he, hf⟩
    all_goals
      simp only [he]
      exact hf.of_log_trans
  · rw [Action.bind_of_ok h, h]
    dsimp only
    rcases stepOverPutBack_cases env
        { s.breakpoints.lookup s.debugee.regs.rip with enabled := false }
        { s.withMem (writeWord s.debugee.mem s.debugee.pc
          (s.breakpoints.lookup s.debugee.regs.rip).savedData) with log } with
      ⟨t, hput, hframe⟩ | ⟨res, t, hres, hput, hframe⟩
    · simp only [Table.lookup_memAddr] at hframe
      have hback : Frame (s.withMem (Function.update (writeWord s.debugee.mem s.debugee.pc
          (s.breakpoints.lookup s.debugee.regs.rip).savedData) s.debugee.pc int3)) t :=
        ⟨hframe.breakpoints, hframe.loadAddress, hframe.dwarfDbg, hframe.written, hframe.mem⟩
      rw [hput, Action.bind_of_ok hput]
      rcases endStage_frame env t breakpoint true with ⟨he, hf⟩ | ⟨he, hf⟩
      · simp only [he]
        exact Frame.trans _ _ _ (hback.writeWord _ _) hf
      · simp only [he]
        exact Frame.trans _ _ _ hback hf
    · rw [hput]
      cases res with
      | ok value => exact absurd rfl hres
      | error code =>
          rw [Action.bind_of_error hput]
          exact hframe.of_log_trans
      | pending =>
          rw [Action.bind_of_pending hput]
          exact hframe.of_log_trans
  · rw [Action.bind_of_error h, h]
    exact Frame.of_log s log

-- `step_out` writes no table entry, and the code holds what the stage says.
theorem stepOut_frame :
    Frame (s.withMem ((finishStage env s).memory s)) (stepOut env s).2 := by
  have hstate := unwindFrameBase_state env s
  unfold stepOut finishStage
  rcases hunwind : unwindFrameBase env s with ⟨_ | _ | _, t⟩ <;> rw [hunwind] at hstate <;>
    subst hstate
  · next frameBase =>
    rw [Action.bind_of_ok hunwind]
    cases frameBase with
    | none => exact Frame.refl _
    | some frameBase =>
        dsimp only
        rcases stepOutArm_cases env t frameBase with ⟨log, harm⟩ | ⟨_, log, harm⟩
        · have hrun := runStage_frame env { t.withMem (Function.update t.debugee.mem
            (readWord t.debugee.mem (frameBase - 8).toNat).toNat int3) with log }
            (returnBreakpoint t (readWord t.debugee.mem (frameBase - 8).toNat))
          rw [← stepOutRest_state] at hrun
          rw [Action.bind_of_ok harm, harm]
          dsimp only [FinishStage.memory]
          rw [returnBreakpoint_memAddr]
          exact ⟨hrun.breakpoints, hrun.loadAddress, hrun.dwarfDbg, hrun.written, hrun.mem⟩
        · rw [Action.bind_of_error harm, harm]
          exact Frame.of_log t log
  · rw [Action.bind_of_error hunwind]
    exact Frame.refl _
  · rw [Action.bind_of_pending hunwind]
    exact Frame.refl _

-- The table and the code are what they were.
def NoTrace (code : Set Nat) (s t : Debugger κ) : Prop :=
  t.breakpoints = s.breakpoints ∧ ∀ a ∈ code, t.debugee.mem a = s.debugee.mem a

-- `word` is what the code holds at the pc, outside `except`.
def Stands (code : Set Nat) (s : Debugger κ) (word : Word) (except : Set Nat) : Prop :=
  ∀ i < 8, s.debugee.pc + i ∈ code → s.debugee.pc + i ∉ except →
    byteOf word i = s.debugee.mem (s.debugee.pc + i)

-- The int3 at the return address is no change to the code, where the word at the pc
-- has not been written over it.
def Unseen (code : Set Nat) (s : Debugger κ) (ra : UWORD) (stepped : Prop) : Prop :=
  ra.toNat ∈ code → ¬(stepped ∧ s.debugee.pc ≤ ra.toNat ∧ ra.toNat < s.debugee.pc + 8) →
    s.debugee.mem ra.toNat = int3

-- When the code is as before, by stage. The word filed for the breakpoint at the pc
-- matters once it has been written back.
def FinishStage.Clean (code : Set Nat) (s : Debugger κ) : FinishStage → Prop
  | .unarmed => True
  | .armed ra .started => Unseen code s ra False
  | .armed ra .lifted =>
      Unseen code s ra True ∧ Stands code s (s.breakpoints.lookup s.debugee.regs.rip).savedData ∅
  | .armed ra .putBack =>
      Unseen code s ra True ∧
        Stands code s (setLowByte (s.breakpoints.lookup s.debugee.regs.rip).savedData int3) ∅
  | .armed _ (.restored false) => True
  | .armed ra (.restored true) =>
      Stands code s (setLowByte (s.breakpoints.lookup s.debugee.regs.rip).savedData int3)
        {a | ra.toNat ≤ a ∧ a < ra.toNat + 8}

-- The two words written at the pc, over the memory with the int3 at the return address.
theorem writeWord_eq_iff (ra : UWORD) (word : Word) :
    (∀ a ∈ code, writeWord (Function.update s.debugee.mem ra.toNat int3) s.debugee.pc word a =
        s.debugee.mem a) ↔
      Unseen code s ra True ∧ Stands code s word ∅ := by
  constructor
  · intro h
    refine ⟨fun hra hout => ?_, fun i hi hin _ => ?_⟩
    · have hbyte := h _ hra
      simp only [true_and] at hout
      rw [writeWord_outside _ _ _ _ (by omega), Function.update_self] at hbyte
      exact hbyte.symm
    · have hbyte := h _ hin
      rwa [writeWord_inside _ _ _ _ (by omega) (by omega), Nat.add_sub_cancel_left] at hbyte
  · rintro ⟨hra, hword⟩ a ha
    by_cases hin : s.debugee.pc ≤ a ∧ a < s.debugee.pc + 8
    · have hbyte := hword (a - s.debugee.pc) (by omega)
        (by rwa [Nat.add_sub_cancel' hin.1]) fun h => h.elim
      rw [writeWord_inside _ _ _ _ hin.1 hin.2, hbyte, Nat.add_sub_cancel' hin.1]
    · rw [writeWord_outside _ _ _ _ (by omega)]
      by_cases hx : a = ra.toNat
      · subst hx
        rw [Function.update_self]
        exact (hra ha fun h => hin h.2).symm
      · rw [Function.update_of_ne hx]

theorem FinishStage.memory_eq_iff (stage : FinishStage) :
    (∀ a ∈ code, stage.memory s a = s.debugee.mem a) ↔ stage.Clean code s := by
  cases stage with
  | unarmed => exact iff_of_true (fun _ _ => rfl) trivial
  | armed ra stage =>
      cases stage with
      | started =>
          simp only [memory, RunStage.memory, Clean, Unseen, false_and, not_false_eq_true,
            true_implies]
          constructor
          · intro h hra
            have hbyte := h _ hra
            rw [Function.update_self] at hbyte
            exact hbyte.symm
          · intro h a ha
            by_cases hx : a = ra.toNat
            · subst hx
              rw [Function.update_self, h ha]
            · rw [Function.update_of_ne hx]
      | lifted => exact writeWord_eq_iff ra _
      | putBack =>
          simp only [memory, RunStage.memory, update_writeWord]
          exact writeWord_eq_iff ra _
      | restored stepped =>
          have hback : (returnBreakpoint s ra).savedData = readWord s.debugee.mem ra.toNat := rfl
          simp only [memory, RunStage.memory, update_writeWord, returnBreakpoint_memAddr, hback]
          cases stepped with
          | false =>
              refine iff_of_true (fun a _ => ?_) trivial
              rw [if_neg (by decide), writeWord_readWord_apply]
              split
              · rfl
              · exact Function.update_of_ne (by omega) _ _
          | true =>
              rw [if_pos rfl]
              constructor
              · intro h i hi hin hout
                have hbyte := h _ hin
                have hfar : ¬(ra.toNat ≤ s.debugee.pc + i ∧ s.debugee.pc + i < ra.toNat + 8) := hout
                rw [writeWord_readWord_apply, if_neg hfar,
                  writeWord_inside _ _ _ _ (by omega) (by omega), Nat.add_sub_cancel_left] at hbyte
                exact hbyte
              · intro h a ha
                rw [writeWord_readWord_apply]
                split
                · rfl
                · next hout =>
                  by_cases hin : s.debugee.pc ≤ a ∧ a < s.debugee.pc + 8
                  · have hbyte := h (a - s.debugee.pc) (by omega)
                      (by rwa [Nat.add_sub_cancel' hin.1]) (by rwa [Nat.add_sub_cancel' hin.1])
                    rw [writeWord_inside _ _ _ _ hin.1 hin.2, hbyte, Nat.add_sub_cancel' hin.1]
                  · rw [writeWord_outside _ _ _ _ (by omega)]
                    exact Function.update_of_ne (by omega) _ _

-- In a run that does not write the code, `finish` leaves no trace exactly if the words it
-- has written itself up to where it ends are those that were there.
theorem noTrace_iff (s : Debugger κ)
    (hcode : ∀ a ∈ code, (stepOut env s).2.written a = false) :
    NoTrace code s (stepOut env s).2 ↔ (finishStage env s).Clean code s := by
  have hframe : Frame _ (stepOut env s).2 := stepOut_frame
  rw [← FinishStage.memory_eq_iff]
  constructor
  · intro h a ha
    exact (hframe.mem a (hcode a ha)).symm.trans (h.2 a ha)
  · intro h
    exact ⟨hframe.breakpoints, fun a ha => (hframe.mem a (hcode a ha)).trans (h a ha)⟩

end Stages

section Examples

-- A leaf function of no-ops at 0x2000, its frame ending at 0x8008 with the return
-- address 0x2008. Its instruction at 0x2004 may raise a signal.
def leafMem : Memory := writeWord (fun _ => 0x90) 0x8000 0x2008

def leafEnv (raises : Bool) : Env Unit :=
  { nopEnv with
    exec p := ({ p with regs := { p.regs with rip := p.regs.rip + 1 } },
      if raises && p.regs.rip = 0x2004 then some (.signal (.other 11) (.other 1)) else none)
    unwStep _ := 1
    unwGetRegSp _ := (0, 0x8008) }

def leafCode : Set Nat := {a | 0x2000 ≤ a ∧ a < 0x2010}

theorem noTrace_leaf :
    NoTrace leafCode (atPrompt leafMem 0x2000)
      (stepOut (leafEnv false) (atPrompt leafMem 0x2000)).2 := by
  have hwritten : ∀ i < 16,
      (stepOut (leafEnv false) (atPrompt leafMem 0x2000)).2.written (0x2000 + i) = false := by
    decide +kernel
  have hstage : finishStage (leafEnv false) (atPrompt leafMem 0x2000) =
      .armed 0x2008 (.restored false) := by
    decide +kernel
  refine (noTrace_iff _ fun a ha => ?_).mpr ?_
  · have hbyte := hwritten (a - 0x2000) (by have := ha.2; omega)
    rwa [Nat.add_sub_cancel' ha.1] at hbyte
  · rw [hstage]
    trivial

-- The debugee gets another signal on its way out: `finish` returns -1 and leaves an int3
-- at the return address that the table does not know.
theorem trace_after_signal :
    let s := atPrompt leafMem 0x2000
    (∀ p a, ((leafEnv true).exec p).1.mem a = p.mem a) ∧ s.breakpoints = .empty ∧
      (stepOut (leafEnv true) s).1 = .error (-1) ∧
      ¬NoTrace leafCode s (stepOut (leafEnv true) s).2 := by
  intro s
  have herror : (stepOut (leafEnv true) s).1 = .error (-1) := by
    decide +kernel
  have hbyte : (stepOut (leafEnv true) s).2.debugee.mem 0x2008 = int3 := by
    decide +kernel
  have hbefore : s.debugee.mem 0x2008 = 0x90 := by
    decide +kernel
  refine ⟨fun _ _ => rfl, rfl, herror, fun h => ?_⟩
  have hsame := h.2 0x2008 ⟨by omega, by omega⟩
  rw [hbyte, hbefore] at hsame
  exact absurd hsame (by decide)

end Examples

end VDebugger
