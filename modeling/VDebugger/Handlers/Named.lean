import VDebugger.Handlers.Register
import Mathlib.Data.List.Induction
import Mathlib.Data.List.TakeWhile

namespace VDebugger

open Machine HandlerM

variable {more : List CString} {mode token value : CString}

section Digits

variable {digits : CString} {n : Nat}

def numberOf (base : Nat) (digits : CString) : Nat :=
  digits.foldl (fun n c => n * base + digitValue c) 0

theorem numberOf_concat (base : Nat) (digits : CString) (c : Char) :
    numberOf base (digits ++ [c]) = numberOf base digits * base + digitValue c := by
  simp only [numberOf, List.foldl_append, List.foldl_cons, List.foldl_nil]

theorem withoutPrefix_decimal (digits : CString) : withoutPrefix 10 digits = digits := by
  unfold withoutPrefix
  split
  · exact if_neg fun h => absurd h.1 (by decide)
  · rfl

end Digits

section Registers

variable {n : Nat} {reg : REGISTER} {base : Nat}

end Registers

section Decisions

variable {undef : UWORD} {n : Int}

-- The places in the two tables are registers.
theorem getRegister_place {α : Type} {table : List α} (hlength : table.length = 27) (p : α → Bool) :
    ∃ reg, getRegister ((table.findIdx? p).getD NO_SUCH_REGISTER) = some reg := by
  have hlt : (table.findIdx? p).getD NO_SUCH_REGISTER < REGISTER.all.length := by
    cases hfind : table.findIdx? p with
    | none => decide
    | some i =>
        obtain ⟨hlt, _⟩ := List.findIdx?_eq_some_iff_getElem.mp hfind
        rw [hlength] at hlt
        exact hlt
  exact ⟨_, List.getElem?_eq_getElem hlt⟩

theorem getRegister_namedNumber {i : Nat} (hmode : mode = "s".toList ∨ mode = "d".toList)
    {base : Nat} (h : namedNumber undef (matchRegisterOption (some mode)) base token = some i) :
    ∃ reg, getRegister i = some reg := by
  rcases hmode with rfl | rfl
  · have habbr : some ((registerAbbr.findIdx? (· = token)).getD NO_SUCH_REGISTER) = some i := h
    cases habbr
    exact getRegister_place (by decide) _
  · have hnumber : (if (parseNumber base token).2 = [] then
        some (DWToReg ((BitVec.ofInt 64 (parseNumber base token).1).setWidth 32).toInt)
        else none) = some i := h
    split at hnumber
    · cases hnumber
      exact getRegister_place (by decide) _
    · cases hnumber

-- The register that was not assigned plays no part behind `s` and `d`.
theorem namedRegister_eq (hmode : mode = "s".toList ∨ mode = "d".toList) (undef : UWORD)
    (base : Nat) (token : CString) : namedRegister base mode token =
      (namedNumber undef (matchRegisterOption (some mode)) base token).bind registerOf := by
  unfold namedRegister
  rw [if_pos hmode]
  rcases hmode with rfl | rfl <;> rfl

theorem mode_known (hmode : mode = "s".toList ∨ mode = "d".toList) :
    matchRegisterOption (some mode) ≠ .INVALID_REGISTER_OPT ∧
      matchRegisterOption (some mode) ≠ .REGISTER_ARG_ALL := by
  rcases hmode with rfl | rfl <;> decide

theorem registerCall_read (hknown : matchRegisterOption (some mode) ≠ .INVALID_REGISTER_OPT)
    (hall : matchRegisterOption (some mode) ≠ .REGISTER_ARG_ALL) :
    registerCall undef ("read".toList :: mode :: token :: more) =
      ((namedNumber undef (matchRegisterOption (some mode)) 16 token).bind registerOf).map
        .showOne := by
  have haction : matchRegisterOption (some "read".toList) = .READ_REGISTER := by decide
  unfold registerCall
  simp only [List.getElem?_cons_zero, List.getElem?_cons_succ, haction, Option.bind_eq_bind,
    Option.bind_some]
  rw [if_neg hknown, if_neg hall]
  cases namedNumber undef (matchRegisterOption (some mode)) 16 token with
  | none => rfl
  | some i =>
      simp only [Option.bind_some, registerOf]
      by_cases hnone : i = NO_SUCH_REGISTER
      · rw [if_pos hnone, if_pos hnone]
        rfl
      · rw [if_neg hnone, if_neg hnone]

theorem registerCall_write (hknown : matchRegisterOption (some mode) ≠ .INVALID_REGISTER_OPT) :
    registerCall undef ("write".toList :: mode :: token :: value :: more) =
      (namedNumber undef (matchRegisterOption (some mode)) 10 token).bind fun i =>
        if i ≠ NO_SUCH_REGISTER ∧ (parseNumber 10 value).2 = [] then
          some (.write (getRegister i) (BitVec.ofInt 64 (parseNumber 10 value).1))
        else none := by
  have haction : matchRegisterOption (some "write".toList) = .WRITE_REGISTER := by decide
  unfold registerCall
  simp only [List.getElem?_cons_zero, List.getElem?_cons_succ, haction, Option.bind_eq_bind,
    Option.bind_some]
  rw [if_neg hknown]
  congr 1
  funext i
  by_cases hnone : i = NO_SUCH_REGISTER
  · rw [if_pos hnone, if_neg fun h => h.1 hnone]
  · rw [if_neg hnone]
    by_cases hrest : (parseNumber 10 value).2 = []
    · rw [if_pos hrest, if_pos ⟨hnone, hrest⟩]
    · rw [if_neg hrest, if_neg fun h => hrest h.2]

-- What `handle_register` makes of a register behind `s` or `d`.
theorem registerCall_read_named (hmode : mode = "s".toList ∨ mode = "d".toList) :
    registerCall undef ("read".toList :: mode :: token :: more)
      = (namedRegister 16 mode token).map .showOne := by
  obtain ⟨hknown, hall⟩ := mode_known hmode
  rw [registerCall_read hknown hall, namedRegister_eq hmode undef]

theorem registerCall_write_named (hmode : mode = "s".toList ∨ mode = "d".toList) :
    registerCall undef ("write".toList :: mode :: token :: value :: more)
      = (namedRegister 10 mode token).bind fun reg =>
        if (parseNumber 10 value).2 = [] then
          some (.write (some reg) (BitVec.ofInt 64 (parseNumber 10 value).1))
        else none := by
  obtain ⟨hknown, _⟩ := mode_known hmode
  rw [registerCall_write hknown, namedRegister_eq hmode undef]
  cases hnumber : namedNumber undef (matchRegisterOption (some mode)) 10 token with
  | none => rfl
  | some i =>
      obtain ⟨reg, hreg⟩ := getRegister_namedNumber hmode hnumber
      simp only [Option.bind_some, registerOf, hreg]
      by_cases hnone : i = NO_SUCH_REGISTER
      · rw [if_neg fun h => h.1 hnone, if_pos hnone, Option.bind_none]
      · rw [if_neg hnone, Option.bind_some]
        by_cases hrest : (parseNumber 10 value).2 = []
        · rw [if_pos ⟨hnone, hrest⟩, if_pos hrest]
        · rw [if_neg fun h => hrest h.2, if_neg hrest]

theorem registerCall_write_none_iff (hmode : mode = "s".toList ∨ mode = "d".toList)
    (hvalue : numeralValue value = some n) :
    registerCall undef ("write".toList :: mode :: token :: value :: more) = none ↔
      namedRegister 10 mode token = none := by
  rw [registerCall_write_named hmode, parseNumber_of_numeral hvalue]
  cases namedRegister 10 mode token with
  | none => exact iff_of_true rfl rfl
  | some reg => exact iff_of_false (Option.some_ne_none _) (Option.some_ne_none _)

end Decisions

end VDebugger
