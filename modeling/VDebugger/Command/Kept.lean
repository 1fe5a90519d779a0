import VDebugger.Command

namespace VDebugger

open Machine

variable {κ : Type} {env : Env κ} {rel : Debugger κ → Debugger κ → Prop}

-- `handle_sigtrap` asks for the registers and writes them.
theorem handleSigtrap_keeps (hrefl : ∀ s, rel s s) (htrans : ∀ s t u, rel s t → rel t u → rel s u)
    (hnote : ∀ s req granted, req.inserts = none → rel s (s.note req granted))
    (hregs : ∀ s regs, rel s (s.withRegs regs)) (siCode : SiCode) :
    (handleSigtrap env siCode).Keeps rel := by
  have hptrace : ∀ req, req.inserts = none → (ptrace env req).Keeps rel := by
    intro req hquiet
    apply Action.Keeps.bind htrans fun s => hnote s req _ hquiet
    intro granted
    cases granted <;> exact hrefl
  have hrewind : (do
      let regs ← getRegsStruct env
      setRegsStruct env (regs.set .rip (regs.get .rip - 1)) : DebuggerM κ Unit).Keeps rel := by
    apply Action.Keeps.bind htrans
    · exact Action.Keeps.bind htrans (hptrace _ rfl) fun _ => hrefl
    · intro regs
      exact Action.Keeps.bind htrans (hptrace _ rfl) fun _ s => hregs s _
  cases siCode with
  | SI_KERNEL => exact hrewind
  | TRAP_BRKPT => exact hrewind
  | TRAP_TRACE => exact hrefl
  | other code => exact hrefl

-- A relation between an earlier and a later state that nothing the debugger does to
-- its own state or to the debugee's can break, except for setting an int3.
structure Quiet (env : Env κ) (rel : Debugger κ → Debugger κ → Prop) : Prop where
  refl : ∀ s, rel s s
  trans : ∀ s t u, rel s t → rel t u → rel s u
  note : ∀ s req granted, req.inserts = none → rel s (s.note req granted)
  withMem : ∀ s mem, rel s (s.withMem mem)
  withRegs : ∀ s regs, rel s (s.withRegs regs)
  resume : ∀ s resume, rel s { s with resumed := some resume }
  settle : ∀ s p info, rel s (s.settle p info)
  search : ∀ s dwarfDbg, rel s { s with dwarfDbg }
  trap : ∀ siCode, (recordTrap env siCode (handleSigtrap env siCode)).Keeps rel

-- One that setting an int3 and filing it cannot break either.
structure Kept (env : Env κ) (rel : Debugger κ → Debugger κ → Prop) : Prop
    extends Quiet env rel where
  insert : ∀ s a data granted, rel s (s.note (.pokeData .enable a data) granted)
  save : ∀ s bp, bp.enabled = true → rel s { s with breakpoints := s.breakpoints.set bp }
  delete : ∀ s bp, rel s { s with breakpoints := s.breakpoints.delete bp }

namespace Quiet

variable {α β : Type}

theorem bind (h : Quiet env rel) {x : DebuggerM κ α} {f : α → DebuggerM κ β}
    (hx : x.Keeps rel) (hf : ∀ a, (f a).Keeps rel) : (x >>= f).Keeps rel :=
  Action.Keeps.bind h.trans hx hf

theorem pure (h : Quiet env rel) (a : α) : (Pure.pure a : DebuggerM κ α).Keeps rel :=
  h.refl

theorem fail (h : Quiet env rel) (res : Int) : (Action.fail res : DebuggerM κ α).Keeps rel :=
  h.refl

theorem fetch (h : Quiet env rel) : (Action.fetch : DebuggerM κ (Debugger κ)).Keeps rel :=
  h.refl

theorem failIf (h : Quiet env rel) (c : Prop) [Decidable c] (res : Int) :
    (Action.failIf c res : DebuggerM κ Unit).Keeps rel :=
  h.refl

theorem request (h : Quiet env rel) (req : Request) (hquiet : req.inserts = none) :
    (VDebugger.request env req).Keeps rel :=
  fun s => h.note s req _ hquiet

theorem ptrace (h : Quiet env rel) (req : Request) (hquiet : req.inserts = none) :
    (VDebugger.ptrace env req).Keeps rel := by
  apply h.bind (h.request req hquiet)
  intro granted
  cases granted
  · exact h.fail _
  · exact h.pure _

theorem peekData (h : Quiet env rel) (addr : UWORD) : (ptracePeekData env addr).Keeps rel :=
  h.bind (h.ptrace _ rfl) fun _ => h.bind h.fetch fun _ => h.pure _

theorem getRegs (h : Quiet env rel) : (getRegsStruct env).Keeps rel :=
  h.bind (h.ptrace _ rfl) fun _ => h.bind h.fetch fun _ => h.pure _

theorem setRegs (h : Quiet env rel) (regs : RegsStruct) : (setRegsStruct env regs).Keeps rel :=
  h.bind (h.ptrace _ rfl) fun _ s => h.withRegs s regs

theorem getRegValue (h : Quiet env rel) (reg : REGISTER) :
    (VDebugger.getRegValue env reg).Keeps rel :=
  h.bind h.getRegs fun _ => h.pure _

theorem awaitStop (h : Quiet env rel) : (VDebugger.awaitStop env).Keeps rel := by
  intro s
  unfold VDebugger.awaitStop
  split
  · exact h.refl s
  · exact h.settle s _ _
  · split
    · exact h.refl s
    · exact h.settle s _ _

theorem waitAndHandleSignal (h : Quiet env rel) :
    (VDebugger.waitAndHandleSignal env).Keeps rel := by
  have hwaitpid : (waitpid env).Keeps rel := by
    apply h.bind (h.request _ rfl)
    intro granted
    cases granted
    · exact h.fail _
    · exact h.awaitStop
  have hwait : (waitForSignal env).Keeps rel :=
    h.bind hwaitpid fun _ => h.bind h.fetch fun _ => h.failIf _ _
  apply h.bind hwait
  intro _
  have hinfo : (getSiginfo env).Keeps rel :=
    h.bind (h.ptrace _ rfl) fun _ => h.bind h.fetch fun _ => h.pure _
  apply h.bind hinfo
  intro info
  split
  · exact h.trap _
  · exact h.fail _

theorem stepInstruction (h : Quiet env rel) : (VDebugger.stepInstruction env).Keeps rel := by
  have hstep : (singleStep env).Keeps rel := h.bind (h.ptrace _ rfl) fun _ s => h.resume s _
  exact h.bind hstep fun _ => h.waitAndHandleSignal

theorem debugContinue (h : Quiet env rel) : (VDebugger.debugContinue env).Keeps rel :=
  h.bind (h.ptrace _ rfl) fun _ s => h.resume s _

theorem getBreakpointAtAddr (h : Quiet env rel) (a : WORD) :
    (VDebugger.getBreakpointAtAddr env a).Keeps rel :=
  h.bind h.fetch fun _ => h.pure _

theorem disableBreakpoint (h : Quiet env rel) (bp : Breakpoint) :
    (VDebugger.disableBreakpoint env bp).Keeps rel :=
  h.bind (h.bind (h.ptrace _ rfl) fun _ s => h.withMem s _) fun _ => h.pure _

theorem stepOverLift (h : Quiet env rel) : (VDebugger.stepOverLift env).Keeps rel := by
  apply h.bind h.getRegs
  intro regs
  apply h.bind (h.getBreakpointAtAddr _)
  intro found
  apply h.bind (h.failIf _ _)
  intro _
  split
  · exact h.pure _
  · exact h.bind (h.disableBreakpoint _) fun _ => h.pure _

theorem unwindFrameBase (h : Quiet env rel) : (VDebugger.unwindFrameBase env).Keeps rel := by
  apply h.bind h.fetch
  intro _
  apply h.bind (h.failIf _ _)
  intro _
  apply h.bind (h.failIf _ _)
  intro _
  dsimp only
  split
  · exact h.pure _
  · exact h.bind (h.failIf _ _) fun _ => h.pure _

theorem stepInLookup (h : Quiet env rel) : (VDebugger.stepInLookup env).Keeps rel := by
  apply h.bind (h.getRegValue _)
  intro _
  apply h.bind h.fetch
  intro s
  refine h.bind (fun t => h.search t _) fun _ => ?_
  repeat' split
  all_goals first | exact h.fail _ | exact h.pure _

end Quiet

namespace Kept

theorem enableBreakpoint (h : Kept env rel) (bp : Breakpoint) :
    (VDebugger.enableBreakpoint env bp).Keeps rel := by
  have hpoke : ∀ data, (ptrace env (.pokeData .enable bp.memAddr data)).Keeps rel := by
    intro data
    apply h.bind fun s => h.insert s _ _ _
    intro granted
    cases granted
    · exact h.fail _
    · exact h.pure _
  refine h.bind (h.peekData _) fun data => h.bind ?_ fun _ => h.pure _
  exact h.bind (hpoke _) fun _ s => h.withMem s _

-- What is filed is what `enable_breakpoint` leaves: an enabled breakpoint.
theorem saveBreakpoint (h : Kept env rel) {x : DebuggerM κ Breakpoint} {bp : Breakpoint}
    (hx : x.Keeps rel)
    (henable : ∀ s enabled t, x s = (.ok enabled, t) →
      VDebugger.enableBreakpoint env bp s = (.ok enabled, t)) :
    (x >>= VDebugger.saveBreakpoint).Keeps rel := by
  intro s
  have hs := hx s
  rcases hc : x s with ⟨enabled | _ | _, t⟩ <;> rw [hc] at hs
  · rw [Action.bind_of_ok hc]
    exact h.trans _ _ _ hs (h.save t enabled (enableBreakpoint_ok_enabled (henable s enabled t hc)))
  · rw [Action.bind_of_error hc]
    exact hs
  · rw [Action.bind_of_pending hc]
    exact hs

theorem handleBreakpointAt (h : Kept env rel) (action : BreakpointAction) (a : WORD) :
    (VDebugger.handleBreakpointAt env action a).Keeps rel := by
  apply h.bind (h.getBreakpointAtAddr a)
  intro found
  apply h.bind (h.failIf _ _)
  intro _
  cases action with
  | ENABLE_BREAKPOINT =>
      exact h.saveBreakpoint (Action.Keeps.orFail (h.enableBreakpoint _) 1)
        fun s enabled t => Action.orFail_eq_ok.mp
  | DISABLE_BREAKPOINT =>
      exact h.bind (Action.Keeps.orFail (h.disableBreakpoint _) 1) fun _ s => h.delete s _

theorem stepOverBreakpoint (h : Kept env rel) : (VDebugger.stepOverBreakpoint env).Keeps rel := by
  apply h.bind h.stepOverLift
  intro lifted
  cases lifted with
  | none => exact h.pure _
  | some bp =>
      exact h.bind h.stepInstruction fun _ => h.bind (h.enableBreakpoint bp) fun _ => h.pure _

theorem handleStepLoop (h : Kept env rel) (times : Nat) :
    (VDebugger.handleStepLoop env times).Keeps rel := by
  induction times with
  | zero => exact h.pure _
  | succ times ih =>
      refine h.bind ?_ fun _ => ih
      apply h.bind h.fetch
      intro _
      apply h.bind (Action.Keeps.attempt (h.getRegValue _))
      intro _
      apply h.bind (h.getBreakpointAtAddr _)
      intro _
      apply h.bind (h.failIf _ _)
      intro _
      split
      · exact h.stepOverBreakpoint
      · exact h.stepInstruction

theorem handleContinue (h : Kept env rel) : (VDebugger.handleContinue env).Keeps rel :=
  h.bind h.stepOverBreakpoint fun _ => h.bind h.debugContinue fun _ => h.waitAndHandleSignal

theorem stepOut (h : Kept env rel) : (VDebugger.stepOut env).Keeps rel := by
  apply h.bind h.unwindFrameBase
  intro frameBase
  cases frameBase with
  | none => exact h.pure _
  | some frameBase =>
      have harm : (stepOutArm env frameBase).Keeps rel := by
        apply h.bind (h.peekData _)
        intro _
        apply h.bind (h.getBreakpointAtAddr _)
        intro _
        apply h.bind (h.failIf _ _)
        intro _
        exact h.bind (h.enableBreakpoint _) fun _ => h.pure _
      apply h.bind harm
      intro armed
      refine h.bind h.handleContinue fun _ => ?_
      dsimp only [stepOutRestore]
      split
      · exact h.bind (h.disableBreakpoint _) fun _ => h.pure _
      · exact h.pure _

theorem stepInInstall (h : Kept env rel) (highPc : UWORD) (rows : List LineRow) :
    (VDebugger.stepInInstall env highPc rows).Keeps rel := by
  induction rows with
  | nil => exact h.pure _
  | cons row rows ih =>
      unfold VDebugger.stepInInstall
      split
      · exact h.fail _
      · exact h.fail _
      · split
        · exact h.pure _
        · apply h.bind h.fetch
          intro _
          apply h.bind (h.getBreakpointAtAddr _)
          intro _
          apply h.bind (h.failIf _ _)
          intro _
          split
          · exact ih
          · rw [← Action.bind_assoc]
            exact h.bind (h.saveBreakpoint (h.enableBreakpoint _) fun _ _ _ => id) fun _ => ih

theorem stepInCleanup (h : Kept env rel) (highPc : UWORD) (rows : List LineRow) :
    (VDebugger.stepInCleanup env highPc rows).Keeps rel := by
  induction rows with
  | nil => exact h.pure _
  | cons row rows ih =>
      unfold VDebugger.stepInCleanup
      split
      · exact h.fail _
      · exact h.fail _
      · split
        · exact h.pure _
        · apply h.bind h.fetch
          intro _
          apply h.bind (h.getBreakpointAtAddr _)
          intro _
          apply h.bind (h.failIf _ _)
          intro _
          split
          · exact ih
          · exact h.bind (h.disableBreakpoint _) fun _ => ih

theorem handleCommand (h : Kept env rel) (command : Command) :
    (VDebugger.handleCommand env command).Keeps rel := by
  cases command with
  | enable a => exact h.handleBreakpointAt _ a
  | disable a => exact h.handleBreakpointAt _ a
  | writeRegister reg value =>
      refine h.bind h.getRegs fun _ => ?_
      exact h.bind (Action.Keeps.attempt (h.bind h.getRegs fun _ => h.setRegs _)) fun _ => h.pure _
  | step times => exact h.handleStepLoop _
  | cont => exact h.handleContinue
  | finish => exact h.stepOut
  | next =>
      apply h.bind h.stepInLookup
      intro found
      apply h.bind (h.stepInInstall _ _)
      intro _
      exact h.bind h.stepOut fun _ => h.stepInCleanup _ _

theorem runCommands (h : Kept env rel) (commands : List Command) :
    (VDebugger.runCommands env commands).Keeps rel := by
  induction commands with
  | nil => exact h.pure _
  | cons command rest ih => exact h.bind (h.handleCommand command) fun _ => ih

theorem runDebugger (h : Kept env rel) (commands : List Command) (s : Debugger κ) :
    rel s (VDebugger.runDebugger env commands s) := by
  induction commands generalizing s with
  | nil => exact h.refl s
  | cons command rest ih =>
      have hs := h.handleCommand command s
      unfold VDebugger.runDebugger
      rcases hc : VDebugger.handleCommand env command s with ⟨_ | res | _, t⟩ <;> rw [hc] at hs
      · exact h.trans _ _ _ hs (ih t)
      · dsimp only
        split
        · exact hs
        · exact h.trans _ _ _ hs (ih t)
      · exact hs

end Kept

-- Once written, always written.
theorem written_kept (env : Env κ) :
    Kept env fun s t : Debugger κ => ∀ a, t.written a = false → s.written a = false where
  refl _ _ h := h
  trans _ _ _ h h' a ha := h a (h' a ha)
  note _ _ _ _ _ h := h
  withMem _ _ _ h := h
  withRegs _ _ _ h := h
  resume _ _ _ h := h
  settle s p info := (Frame.settle s p info).written
  search _ _ _ h := h
  trap siCode s := (recordTrap_frame siCode (handleSigtrap_frame siCode) s).written
  insert _ _ _ _ _ h := h
  save _ _ _ _ h := h
  delete _ _ _ h := h

end VDebugger
