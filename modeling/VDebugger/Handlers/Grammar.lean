import VDebugger.Handlers.Named

namespace VDebugger

open Machine HandlerM

variable {κ : Type} {env : Env κ} {s : Debugger κ} {tokens more : List CString}
  {mode token value : CString}

section Grammar

inductive RegCommand where
  | readAll
  | read (reg : REGISTER)
  | write (reg : REGISTER) (value : Int)
  deriving DecidableEq, Repr

-- What is seen of a command, and the registers behind it.
def RegCommand.Done (command : RegCommand) (regs after : RegsStruct) (shown : Shown) : Prop :=
  match command with
  | .readAll => shown = .registers regs ∧ after = regs
  | .read reg => shown = .value (regs.get reg) ∧ after = regs
  | .write reg _ => shown = .nothing ∧ ∃ value, after = regs.set reg value

end Grammar

section Deviation

end Deviation

section Agreement

variable {undef : UWORD} {n : Int}

-- The call that a command of the grammar stands for. A value has at most 64 bits.
def RegCommand.toCall : RegCommand → RegisterCall
  | .readAll => .showAll
  | .read reg => .showOne reg
  | .write reg value => .write (some reg) (BitVec.ofInt 64 (max (-2 ^ 63) (min value (2 ^ 63 - 1))))

end Agreement

section Runs

variable {undef : UWORD}

theorem RegCommand.done {command : RegCommand} {shown : Shown} {t : Debugger κ}
    (hrun : (performCall env s.debugee.regs command.toCall).run (s.note .getRegs true)
      = (.ok (some shown), t)) (hgranted : Granted env (s.note .getRegs true) t) :
    command.Done s.debugee.regs t.debugee.regs shown := by
  cases command with
  | readAll =>
      cases hrun
      exact ⟨rfl, rfl⟩
  | read reg =>
      cases hrun
      exact ⟨rfl, rfl⟩
  | write reg value =>
      unfold RegCommand.toCall at hrun
      by_cases h : env.fault (s.note .getRegs true).log.length = true ∨
          env.fault ((s.note .getRegs true).log.length + 1) = true
      · obtain ⟨u, _, hrefused, hwrite⟩ := performCall_write_of_refused h s.debugee.regs reg _
        rw [hwrite] at hrun
        cases hrun
        exact absurd hgranted hrefused
      · rw [not_or, Bool.not_eq_true, Bool.not_eq_true] at h
        rw [performCall_write_of_granted h.1 h.2] at hrun
        cases hrun
        exact ⟨rfl, _, rfl⟩

end Runs

section Examples

end Examples

end VDebugger
