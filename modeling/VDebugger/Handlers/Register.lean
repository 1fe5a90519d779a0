import VDebugger.Handlers.Step
import VDebugger.LocExpr.RegisterOps

namespace VDebugger

open Machine HandlerM

variable {κ : Type} {env : Env κ} {s : Debugger κ} {tokens : List CString}

section Output

-- What `handle_register` writes to the terminal.
inductive Shown where
  | nothing
  | registers (regs : RegsStruct)
  | value (value : UWORD)

-- `handle_register` with `print_registers` and the `fprintf` of a value.
def handleRegisterShown (env : Env κ) (tokens : List CString) : HandlerM κ Shown := do
  let action := matchRegisterOption tokens[0]?
  let mode := matchRegisterOption tokens[1]?
  rejectIf (action = .INVALID_REGISTER_OPT ∨ mode = .INVALID_REGISTER_OPT) 1
  let arg := tokens[2]?
  let regs ← call (getRegsStruct env)
  match action with
  | .READ_REGISTER =>
      if mode = .REGISTER_ARG_ALL then do
        rejectIf (arg ≠ none) Errors.INVALID_COMMAND.code
        pure (.registers regs)
      else do
        rejectIf (arg = none) Errors.INVALID_COMMAND.code
        let reg ← registerArg env mode 16 arg
        rejectIf (reg = NO_SUCH_REGISTER) 1
        match getRegister reg with
        | none => reject 1
        | some reg => pure (.value (regs.get reg))
  | .WRITE_REGISTER => do
      rejectIf (arg = none) Errors.INVALID_COMMAND.code
      let reg ← registerArg env mode 10 arg
      rejectIf (reg = NO_SUCH_REGISTER) 1
      let arg := tokens[3]?
      rejectIf (arg = none) Errors.INVALID_COMMAND.code
      let (value, rest) ← strtoll 10 arg
      rejectIf (rest ≠ []) Errors.INVALID_COMMAND.code
      match getRegister reg with
      | none => do
          let _ ← call (getRegsStruct env).attempt
          pure .nothing
      | some reg => do
          let _ ← call (setRegValue env reg value).attempt
          pure .nothing
  | _ => reject Errors.INVALID_COMMAND.code

-- A call that is the same but for what it shows.
def Hides {α : Type} (x : HandlerM κ Unit) (y : HandlerM κ α) : Prop :=
  ∀ s, x.run s = (y >>= fun _ => pure ()).run s

theorem Hides.bind {α β : Type} {x : HandlerM κ β} {f : β → HandlerM κ Unit}
    {g : β → HandlerM κ α} (h : ∀ a, Hides (f a) (g a)) : Hides (x >>= f) (x >>= g) := by
  intro s
  rw [run_bind_apply, run_bind_apply, run_bind_apply]
  rcases x.run s with ⟨(_ | a) | _ | _, t⟩
  · rfl
  · exact (h a t).trans (run_bind_apply ..)
  · rfl
  · rfl

theorem handleRegister_hides (env : Env κ) (tokens : List CString) :
    Hides (handleRegister env tokens) (handleRegisterShown env tokens) := by
  apply Hides.bind
  intro _
  apply Hides.bind
  intro regs
  cases matchRegisterOption tokens[0]?
  case READ_REGISTER =>
    dsimp only
    by_cases hall : matchRegisterOption tokens[1]? = .REGISTER_ARG_ALL
    · rw [if_pos hall, if_pos hall]
      intro s
      by_cases harg : tokens[2]? ≠ none
      · rw [run_bind_apply, run_rejectIf_of harg, rejectIf, run_call, Action.failIf_of harg]
      · rw [run_bind_apply, run_rejectIf_of_not harg, rejectIf, run_call,
          Action.failIf_of_not harg]
        rfl
    · rw [if_neg hall, if_neg hall]
      apply Hides.bind
      intro _
      apply Hides.bind
      intro reg
      apply Hides.bind
      intro _ s
      cases getRegister reg <;> rfl
  case WRITE_REGISTER =>
    apply Hides.bind
    intro _
    apply Hides.bind
    intro reg
    apply Hides.bind
    intro _
    apply Hides.bind
    intro _
    apply Hides.bind
    rintro ⟨value, rest⟩
    apply Hides.bind
    intro _
    cases getRegister reg with
    | none => exact Hides.bind fun _ _ => rfl
    | some reg => exact Hides.bind fun _ _ => rfl
  all_goals exact fun _ => rfl

end Output

section Calls

-- What the tokens come to, once they are read.
inductive RegisterCall where
  | showAll
  | showOne (reg : REGISTER)
  | write (reg : Option REGISTER) (value : WORD)
  deriving DecidableEq, Repr

-- The value of `reg` behind the `if` over `mode`, `none` where the number is not a numeral.
def namedNumber (undef : UWORD) (mode : REGISTER_OPTIONS) (base : Nat) (token : CString) :
    Option Nat :=
  match mode with
  | .REGISTER_ARG_ABBR => some ((registerAbbr.findIdx? (· = token)).getD NO_SUCH_REGISTER)
  | .REGISTER_ARG_DWARF =>
      if (parseNumber base token).2 = [] then
        some (DWToReg ((BitVec.ofInt 64 (parseNumber base token).1).setWidth 32).toInt)
      else none
  | _ => some (undef.toNat % 2 ^ 32)

-- `get_register` behind the comparison with NO_SUCH_REGISTER
def registerOf (reg : Nat) : Option REGISTER :=
  if reg = NO_SUCH_REGISTER then none else getRegister reg

-- The register that the code finds for a token behind `s` or `d`.
def namedRegister (base : Nat) (mode token : CString) : Option REGISTER :=
  if mode = "s".toList ∨ mode = "d".toList then
    (namedNumber 0 (matchRegisterOption (some mode)) base token).bind registerOf
  else none

-- The call that `handle_register` makes of its tokens, `none` where it rejects them.
def registerCall (undef : UWORD) (tokens : List CString) : Option RegisterCall :=
  let mode := matchRegisterOption tokens[1]?
  if mode = .INVALID_REGISTER_OPT then none
  else match matchRegisterOption tokens[0]? with
    | .READ_REGISTER =>
        if mode = .REGISTER_ARG_ALL then if tokens[2]? = none then some .showAll else none
        else do
          let reg ← namedNumber undef mode 16 (← tokens[2]?)
          if reg = NO_SUCH_REGISTER then none else (getRegister reg).map .showOne
    | .WRITE_REGISTER => do
        let reg ← namedNumber undef mode 10 (← tokens[2]?)
        if reg = NO_SUCH_REGISTER then none
        else do
          let value ← tokens[3]?
          if (parseNumber 10 value).2 = [] then
            some (.write (getRegister reg) (BitVec.ofInt 64 (parseNumber 10 value).1))
          else none
    | _ => none

def performCall (env : Env κ) (regs : RegsStruct) : RegisterCall → HandlerM κ Shown
  | .showAll => pure (.registers regs)
  | .showOne reg => pure (.value (regs.get reg))
  | .write none _ => do
      let _ ← call (getRegsStruct env).attempt
      pure .nothing
  | .write (some reg) value => do
      let _ ← call (setRegValue env reg value).attempt
      pure .nothing

-- The two tokens that come first are known ones.
def OptionsKnown (tokens : List CString) : Prop :=
  matchRegisterOption tokens[0]? ≠ .INVALID_REGISTER_OPT ∧
    matchRegisterOption tokens[1]? ≠ .INVALID_REGISTER_OPT

theorem registerArg_run (env : Env κ) (mode : REGISTER_OPTIONS) (base : Nat) (token : CString)
    (s : Debugger κ) : (registerArg env mode base (some token)).run s =
      match namedNumber (env.undef s.log.length) mode base token with
      | none => (.error 1, s)
      | some reg => (.ok (some reg), s) := by
  cases mode
  case REGISTER_ARG_DWARF =>
    have hread : (registerArg env .REGISTER_ARG_DWARF base (some token)).run s =
        (rejectIf ((parseNumber base token).2 ≠ []) Errors.INVALID_COMMAND.code >>= fun _ =>
          pure (DWToReg ((BitVec.ofInt 64 (parseNumber base token).1).setWidth 32).toInt)
          : HandlerM κ Nat).run s := rfl
    rw [hread, namedNumber]
    by_cases hrest : (parseNumber base token).2 = []
    · rw [run_rejectIf_of_not (not_not_intro hrest), if_pos hrest]
      rfl
    · rw [run_rejectIf_of hrest, if_neg hrest]
      rfl
  all_goals rfl

theorem handleRegisterShown_refused (h : OptionsKnown tokens)
    (hfault : env.fault s.log.length = true) :
    (handleRegisterShown env tokens).run s =
      (.error Errors.PTRACE_ERROR.code, s.note .getRegs false) := by
  unfold handleRegisterShown
  have hknown : ¬(matchRegisterOption tokens[0]? = .INVALID_REGISTER_OPT ∨
      matchRegisterOption tokens[1]? = .INVALID_REGISTER_OPT) := not_or.mpr h
  rw [run_rejectIf_of_not hknown, run_bind_apply, run_call, getRegsStruct_of_refused hfault]

-- Behind `registerArg`, a register that the table does not have is rejected.
theorem run_registerArg_bind {α : Type} (mode : REGISTER_OPTIONS) (base : Nat) (token : CString)
    (f : Nat → HandlerM κ α) (s : Debugger κ) :
    (registerArg env mode base (some token) >>= fun reg =>
      rejectIf (reg = NO_SUCH_REGISTER) 1 >>= fun _ => f reg).run s =
      match namedNumber (env.undef s.log.length) mode base token with
      | none => (.error 1, s)
      | some reg => if reg = NO_SUCH_REGISTER then (.error 1, s) else (f reg).run s := by
  rw [run_bind_apply, registerArg_run]
  cases namedNumber (env.undef s.log.length) mode base token with
  | none => rfl
  | some reg =>
      dsimp only
      by_cases hnone : reg = NO_SUCH_REGISTER
      · rw [run_rejectIf_of hnone, if_pos hnone]
      · rw [run_rejectIf_of_not hnone, if_neg hnone]

theorem handleRegisterShown_granted (h : OptionsKnown tokens)
    (hfault : env.fault s.log.length = false) :
    (handleRegisterShown env tokens).run s =
      match registerCall (env.undef (s.log.length + 1)) tokens with
      | none => (.error 1, s.note .getRegs true)
      | some request => (performCall env s.debugee.regs request).run (s.note .getRegs true) := by
  have hknown : ¬(matchRegisterOption tokens[0]? = .INVALID_REGISTER_OPT ∨
      matchRegisterOption tokens[1]? = .INVALID_REGISTER_OPT) := not_or.mpr h
  unfold handleRegisterShown
  rw [run_rejectIf_of_not hknown, run_bind_apply, run_call, getRegsStruct_of_granted hfault]
  unfold registerCall
  dsimp only
  rw [if_neg h.2]
  have hlength : (s.note .getRegs true).log.length = s.log.length + 1 := rfl
  rw [← hlength]
  generalize s.note .getRegs true = t
  cases matchRegisterOption tokens[0]?
  case READ_REGISTER =>
    dsimp only
    by_cases hall : matchRegisterOption tokens[1]? = .REGISTER_ARG_ALL
    · rw [if_pos hall, if_pos hall]
      by_cases harg : tokens[2]? = none
      · rw [run_rejectIf_of_not (not_not_intro harg), if_pos harg]
        rfl
      · rw [run_rejectIf_of harg, if_neg harg]
        rfl
    · rw [if_neg hall, if_neg hall]
      cases harg : tokens[2]? with
      | none => rfl
      | some token =>
          rw [run_rejectIf_of_not (Option.some_ne_none token), run_registerArg_bind]
          cases hreg : namedNumber (env.undef t.log.length) (matchRegisterOption tokens[1]?) 16
              token with
          | none => simp [hreg]
          | some reg =>
              simp only [hreg, Option.bind_eq_bind, Option.bind_some]
              by_cases hnone : reg = NO_SUCH_REGISTER
              · rw [if_pos hnone, if_pos hnone]
              · rw [if_neg hnone, if_neg hnone]
                cases getRegister reg <;> rfl
  case WRITE_REGISTER =>
    dsimp only
    cases harg : tokens[2]? with
    | none => rfl
    | some token =>
        rw [run_rejectIf_of_not (Option.some_ne_none token), run_registerArg_bind]
        cases hreg : namedNumber (env.undef t.log.length) (matchRegisterOption tokens[1]?) 10
            token with
        | none => simp [hreg]
        | some reg =>
            simp only [hreg, Option.bind_eq_bind, Option.bind_some]
            by_cases hnone : reg = NO_SUCH_REGISTER
            · rw [if_pos hnone, if_pos hnone]
            · rw [if_neg hnone, if_neg hnone]
              cases hvalue : tokens[3]? with
              | none => rfl
              | some value =>
                  rw [run_rejectIf_of_not (Option.some_ne_none value), run_strtoll]
                  by_cases hrest : (parseNumber 10 value).2 = []
                  · rw [run_rejectIf_of_not (not_not_intro hrest), Option.bind_some, if_pos hrest]
                    cases getRegister reg <;> rfl
                  · rw [run_rejectIf_of hrest, Option.bind_some, if_neg hrest]
                    rfl
  all_goals rfl

theorem setRegValue_of_granted (hget : env.fault s.log.length = false)
    (hset : env.fault (s.log.length + 1) = false) (reg : REGISTER) (value : WORD) :
    setRegValue env reg value s =
      (.ok (), ((s.note .getRegs true).note .setRegs true).withRegs
        (s.debugee.regs.set reg value)) := by
  unfold setRegValue setRegsStruct
  rw [Action.bind_of_ok (getRegsStruct_of_granted hget),
    Action.bind_of_ok (ptrace_of_granted (s := s.note .getRegs true) hset _)]
  rfl

theorem setRegValue_of_refused
    (h : env.fault s.log.length = true ∨ env.fault (s.log.length + 1) = true) (reg : REGISTER)
    (value : WORD) : ∃ t, t.debugee = s.debugee ∧ ¬Granted env s t ∧
      setRegValue env reg value s = (.error Errors.PTRACE_ERROR.code, t) := by
  unfold setRegValue setRegsStruct
  cases hget : env.fault s.log.length with
  | true =>
      refine ⟨s.note .getRegs false, rfl, fun hgranted => ?_,
        Action.bind_of_error (getRegsStruct_of_refused hget) _⟩
      rw [hgranted _ (Nat.le_refl _) (Nat.lt_succ_self _)] at hget
      cases hget
  | false =>
      have hset := h.resolve_left (by rw [hget]; exact Bool.false_ne_true)
      refine ⟨(s.note .getRegs true).note .setRegs false, rfl, fun hgranted => ?_, ?_⟩
      · rw [hgranted _ (Nat.le_succ _) (Nat.lt_succ_self _)] at hset
        cases hset
      · rw [Action.bind_of_ok (getRegsStruct_of_granted hget)]
        exact Action.bind_of_error (ptrace_of_refused (s := s.note .getRegs true) hset _) _

theorem performCall_write_of_granted (hget : env.fault s.log.length = false)
    (hset : env.fault (s.log.length + 1) = false) (regs : RegsStruct) (reg : REGISTER)
    (value : WORD) : (performCall env regs (.write (some reg) value)).run s =
      (.ok (some .nothing), ((s.note .getRegs true).note .setRegs true).withRegs
        (s.debugee.regs.set reg value)) := by
  have hrun := setRegValue_of_granted hget hset reg value
  unfold performCall
  rw [run_bind_apply, run_call, Action.attempt, hrun]
  rfl

-- The result of `set_reg_value` is dropped.
theorem performCall_write_of_refused
    (h : env.fault s.log.length = true ∨ env.fault (s.log.length + 1) = true) (regs : RegsStruct)
    (reg : REGISTER) (value : WORD) : ∃ t, t.debugee = s.debugee ∧ ¬Granted env s t ∧
      (performCall env regs (.write (some reg) value)).run s = (.ok (some .nothing), t) := by
  obtain ⟨t, hsame, hrefused, hrun⟩ := setRegValue_of_refused h reg value
  refine ⟨t, hsame, hrefused, ?_⟩
  unfold performCall
  rw [run_bind_apply, run_call, Action.attempt, hrun]
  rfl

end Calls

end VDebugger
