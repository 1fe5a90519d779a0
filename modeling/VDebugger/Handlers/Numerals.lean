import VDebugger.Handlers.Buffer
import VDebugger.Handlers.Register

namespace VDebugger

open Machine HandlerM

variable {malloc : Nat → Char} {after : Buffer}

-- The tokens that the handlers take for numbers, and in which base. The first token is the
-- name of the command.
inductive NumeralAt (tokens : List CString) : Nat → Nat → Prop where
  | times (hcommand : matchCommand tokens[0]? = .STEP) : NumeralAt tokens 1 10
  | readNumber (hcommand : matchCommand tokens[0]? = .REG)
      (haction : matchRegisterOption tokens[1]? = .READ_REGISTER)
      (hmode : matchRegisterOption tokens[2]? = .REGISTER_ARG_DWARF) : NumeralAt tokens 3 16
  | writeNumber (hcommand : matchCommand tokens[0]? = .REG)
      (haction : matchRegisterOption tokens[1]? = .WRITE_REGISTER)
      (hmode : matchRegisterOption tokens[2]? = .REGISTER_ARG_DWARF) : NumeralAt tokens 3 10
  -- The value is read once there is a register.
  | value (hcommand : matchCommand tokens[0]? = .REG)
      (haction : matchRegisterOption tokens[1]? = .WRITE_REGISTER)
      (hreg : ∀ mode token, tokens[2]? = some mode → tokens[3]? = some token →
        mode = "s".toList ∨ mode = "d".toList → namedRegister 10 mode token ≠ none) :
      NumeralAt tokens 4 10

-- A number is accepted only if `strtoll` has read the whole token.
def NumeralsWhole (after : Buffer) : Prop :=
  ∀ index base, NumeralAt (tokens after) index base → ∀ arg n, nthArg index after = some arg →
    arg.numeral base = some n → (parseNumber base arg.chars).2 = []

-- The command is one character too long for the null character behind its last token, and that
-- token is a number with one more character behind it.
def EndsShort (command : List CString) : Prop :=
  ∃ index base token, NumeralAt command index base ∧ index + 1 = command.length ∧
    command[index]? = some token ∧ (encode command).length = CMD_MAX_SIZE + 1 ∧
    (parseNumber base token).2.length = 1

theorem numerals_whole_iff (h : Delivered malloc after) :
    NumeralsWhole after ↔ ¬EndsShort (tokens after) := by
  have hholds := h.holds
  constructor
  · rintro hwhole ⟨index, base, token, hnumeral, hlast, htoken, hcut, hrest⟩
    obtain ⟨start, harg⟩ := hholds.nthArg_eq htoken
    have hbehind : HoldsCommand.behindToken CMD_MAX_SIZE (tokens after) index start token.length
        = start + token.length := if_pos ⟨hlast, hcut⟩
    rw [hbehind] at harg
    have hle := (parseNumber_suffix base token).length_le
    have haccepts : (Arg.mk token start (start + token.length)).behind
        ≤ start + (token.length - (parseNumber base token).2.length) + 1 := by
      simp only
      omega
    obtain ⟨n, hn⟩ := Arg.numeral_accepts.mpr haccepts
    have hnil := hwhole index base hnumeral _ n harg hn
    rw [hnil] at hrest
    cases hrest
  · intro hshort index base hnumeral arg n harg hn
    by_contra hne
    have haccepts := Arg.numeral_accepts.mp ⟨n, hn⟩
    cases htoken : (tokens after)[index]? with
    | none =>
        rw [hholds.nthArg_end (by decide) (List.getElem?_eq_none_iff.mp htoken)] at harg
        cases harg
    | some token =>
        obtain ⟨start, hstart⟩ := hholds.nthArg_eq htoken
        rw [harg] at hstart
        cases hstart
        have hle := (parseNumber_suffix base token).length_le
        have hpos := List.length_pos_iff.mpr hne
        unfold HoldsCommand.behindToken at haccepts
        simp only at haccepts hpos
        by_cases hcut : index + 1 = (tokens after).length ∧
            (encode (tokens after)).length = CMD_MAX_SIZE + 1
        · rw [if_pos hcut] at haccepts
          exact hshort ⟨index, base, token, hnumeral, hcut.1, htoken, hcut.2, by omega⟩
        · rw [if_neg hcut] at haccepts
          omega

-- A command of two tokens, typed as the first line, as long as it is no longer than the buffer.
theorem pair_delivered (malloc : Nat → Char) {name token : CString} (hname : IsToken name)
    (htoken : IsToken token) (hfits : (encode [name] ++ token).length ≤ CMD_MAX_SIZE) :
    ∃ after, Delivered malloc after ∧ HoldsCommand CMD_MAX_SIZE after [name, token] := by
  have hlength := hfits
  rw [encode_cons, encode_nil, List.length_append, List.length_append, List.length_singleton]
    at hlength
  have hnew : Typed CMD_MAX_SIZE (newBuffer malloc CMD_MAX_SIZE) [] [] := .reset ⟨rfl, rfl, rfl⟩
  obtain ⟨first, hfirst, hparseName⟩ := parseInput_token hnew.reads hname.plain
    (by rw [encode_nil, List.append_nil, List.length_nil]; omega) (' ' :: (token ++ [';']))
  have htyped : Typed CMD_MAX_SIZE first [] name := ⟨hfirst, hnew.whole, hname.plain⟩
  have hback := htyped.back_iff.mpr hname.ne_nil
  obtain ⟨second, hwrite, hsecond⟩ := htyped.ended hname.ne_nil
    (by rw [encode_nil, List.nil_append]; omega)
  obtain ⟨third, hthird, hparseToken⟩ := parseInput_token hsecond.reads htoken.plain
    (by rw [List.append_nil, List.nil_append, ← List.length_append]; exact hfits) [';']
  rw [List.append_nil, List.nil_append] at hthird
  have hlast : Typed CMD_MAX_SIZE third [name] token := ⟨hthird, hsecond.whole, htoken.plain⟩
  have hholds := hlast.holds
  rw [if_neg htoken.ne_nil] at hholds
  refine ⟨_, ⟨_, name ++ ' ' :: (token ++ [';']), [], .start, ?_, ?_⟩, hholds⟩
  · intro hmem
    rcases List.mem_append.mp hmem with hmem | hmem
    · exact hname.nul_not_mem hmem
    · rcases List.mem_append.mp ((List.mem_cons.mp hmem).resolve_left (by decide)) with hmem | hmem
      · exact htoken.nul_not_mem hmem
      · exact absurd hmem (by decide)
  · rw [hparseName, parseInput, if_neg (by decide), if_neg (by decide), if_pos hback, hwrite]
    dsimp only
    rw [hparseToken, parseInput, if_pos rfl]

section Example

-- A number with one more character, for a token of any length.
def longNumber (zeros : Nat) : CString := List.replicate zeros '0' ++ "5x".toList

theorem parseDigits_longNumber (zeros : Nat) :
    parseDigits 10 (longNumber zeros) = some (5, ['x']) := by
  have hplain : withoutPrefix 10 (longNumber zeros) = longNumber zeros := by
    unfold withoutPrefix
    split
    · next heq => rw [if_neg (fun h => absurd h.1 (by decide)), heq]
    · rfl
  have hdigits : ∀ c ∈ List.replicate zeros '0', decide (digitValue c < 10) = true := by
    intro c hmem
    rw [List.eq_of_mem_replicate hmem]
    decide
  have htake : "5x".toList.takeWhile (fun c => decide (digitValue c < 10)) = ['5'] := by decide
  have hvalue : (List.replicate zeros '0').foldl (fun n c => n * 10 + digitValue c) 0 = 0 := by
    clear hplain hdigits
    induction zeros with
    | zero => rfl
    | succ zeros ih => exact ih
  unfold parseDigits
  rw [hplain, longNumber, List.takeWhile_append_of_pos hdigits,
    List.dropWhile_append_of_pos hdigits, htake]
  dsimp only
  rw [if_neg (List.append_ne_nil_of_right_ne_nil _ (List.cons_ne_nil _ _)), List.foldl_append,
    hvalue]
  decide

theorem parseNumber_longNumber (zeros : Nat) : parseNumber 10 (longNumber zeros) = (5, ['x']) := by
  have hsign : signOf (longNumber zeros) = (false, longNumber zeros) := by
    cases zeros <;> rfl
  rw [parseNumber_eq, hsign, parseDigits_longNumber]
  rfl

theorem plain_of_all {token : CString}
    (h : (token.all fun c => decide (isWhitespace c = false ∧ c ≠ ';' ∧ c ≠ nul)) = true) :
    ∀ c ∈ token, isWhitespace c = false ∧ c ≠ ';' ∧ c ≠ nul :=
  fun c hmem => of_decide_eq_true (List.all_eq_true.mp h c hmem)

theorem longNumber_plain (zeros : Nat) :
    ∀ c ∈ longNumber zeros, isWhitespace c = false ∧ c ≠ ';' ∧ c ≠ nul := by
  intro c hmem
  rcases List.mem_append.mp hmem with hzero | hend
  · rw [List.eq_of_mem_replicate hzero]
    decide
  · exact plain_of_all (show ("5x".toList.all _) = true by decide) c hend

theorem length_longNumber (zeros : Nat) : (longNumber zeros).length = zeros + 2 := by
  rw [longNumber, List.length_append, List.length_replicate]
  rfl

theorem longNumber_isToken (zeros : Nat) : IsToken (longNumber zeros) where
  ne_nil := List.append_ne_nil_of_right_ne_nil _ (List.cons_ne_nil _ _)
  plain := longNumber_plain zeros

theorem step_isToken : IsToken "step".toList := ⟨by decide, plain_of_all (by decide)⟩

-- With so many zeros the command fills the buffer to its last character.
theorem longNumber_accepted {zeros : Nat} (hzeros : zeros + 7 = CMD_MAX_SIZE) :
    ∃ after, Delivered (fun _ => 'x') after ∧
      tokens after = ["step".toList, longNumber zeros] ∧ ¬NumeralsWhole after := by
  have hstep : "step".toList.length = 4 := rfl
  have hlength : (encode ["step".toList, longNumber zeros]).length = CMD_MAX_SIZE + 1 := by
    simp only [encode_cons, encode_nil, List.length_append, List.length_cons, List.length_nil,
      length_longNumber, hstep]
    omega
  obtain ⟨after, hdelivered, hholds⟩ := pair_delivered (fun _ => 'x') step_isToken
    (longNumber_isToken zeros) (by
      simp only [encode_cons, encode_nil, List.length_append, List.length_cons, List.length_nil,
        length_longNumber, hstep]
      omega)
  have htokens := hholds.tokens_eq (by decide)
  refine ⟨after, hdelivered, htokens, fun hwhole => ?_⟩
  obtain ⟨start, harg⟩ :=
    hholds.nthArg_eq (show ["step".toList, longNumber zeros][1]? = some (longNumber zeros) from rfl)
  rw [HoldsCommand.behindToken, if_pos ⟨rfl, hlength⟩] at harg
  have hnumeral : NumeralAt (tokens after) 1 10 := by
    rw [htokens]
    exact .times (show matchCommand (some "step".toList) = .STEP by decide)
  have hparse := parseNumber_longNumber zeros
  have haccepts : ∃ n, (Arg.mk (longNumber zeros) start
      (start + (longNumber zeros).length)).numeral 10 = some n := by
    apply Arg.numeral_accepts.mpr
    simp only [hparse, List.length_singleton]
    omega
  obtain ⟨n, hn⟩ := haccepts
  have hnil := hwhole 1 10 hnumeral _ n harg hn
  rw [hparse] at hnil
  cases hnil

theorem trailing_character_accepted :
    ∃ after, Delivered (fun _ => 'x') after ∧
      tokens after = ["step".toList, longNumber (CMD_MAX_SIZE - 7)] ∧ ¬NumeralsWhole after :=
  longNumber_accepted (by decide)

-- A shorter command.
theorem numerals_whole_step_two :
    ∃ after, Delivered (fun _ => 'x') after ∧ tokens after = ["step".toList, "2".toList] ∧
      NumeralsWhole after := by
  have htoken : IsToken "2".toList := ⟨by decide, plain_of_all (by decide)⟩
  obtain ⟨after, hdelivered, hholds⟩ :=
    pair_delivered (fun _ => 'x') step_isToken htoken (by decide)
  have htokens := hholds.tokens_eq (by decide)
  refine ⟨after, hdelivered, htokens, (numerals_whole_iff hdelivered).mpr ?_⟩
  rintro ⟨index, base, token, hnumeral, hlast, htoken, hcut, hrest⟩
  rw [htokens] at hcut
  exact absurd hcut (by decide)

end Example

end VDebugger
