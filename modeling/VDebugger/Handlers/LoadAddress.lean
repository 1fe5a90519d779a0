import VDebugger.Handlers.Terminal

namespace VDebugger

open Machine

section Load

-- What `fgets` stores: the text up to a newline, which it keeps.
def fgetsLine (text : CString) : CString :=
  text.takeWhile (· ≠ '\n') ++ (text.dropWhile (· ≠ '\n')).take 1

-- `get_load_address`, where `popen` gives no stream or one that `cat` writes the mappings to.
-- Sixteen characters find room in the buffer, and `fgets` gives NULL where there are none.
def getLoadAddress (stream : Option CString) : Option WORD :=
  match stream with
  | none => none
  | some maps =>
      let memOffsetHex := fgetsLine (maps.take 16)
      if memOffsetHex = [] then none
      else some (BitVec.ofInt 64 (parseNumber 16 memOffsetHex).1)

-- `%08lx`, the way the kernel writes the start of a mapping.
def hexPadded (data : UWORD) : CString :=
  List.replicate (8 - (formatHex data).length) '0' ++ formatHex data

end Load

section Padded

variable {data : UWORD} {digits rest : CString}

theorem numberOf_zeros (zeros : Nat) (digits : CString) :
    numberOf 16 (List.replicate zeros '0' ++ digits) = numberOf 16 digits := by
  induction zeros with
  | zero => rfl
  | succ zeros ih =>
      rw [List.replicate_succ, List.cons_append]
      exact ih

theorem hexPadded_digits (data : UWORD) :
    (∀ c ∈ hexPadded data, digitValue c < 16) ∧ numberOf 16 (hexPadded data) = data.toNat := by
  obtain ⟨hdigits, hnumber⟩ := toDigits_digits (show 1 < 16 by decide) (by decide) data.toNat
  refine ⟨fun c hmem => ?_, (numberOf_zeros _ _).trans hnumber⟩
  rcases List.mem_append.mp hmem with hzero | hdigit
  · rw [List.eq_of_mem_replicate hzero]
    decide
  · exact hdigits c hdigit

theorem hexPadded_length (data : UWORD) :
    8 ≤ (hexPadded data).length ∧ (hexPadded data).length ≤ 16 := by
  have hle : (formatHex data).length ≤ 16 :=
    (Nat.length_toDigits_le_iff (by decide) (by decide)).mpr data.isLt
  unfold hexPadded
  rw [List.length_append, List.length_replicate]
  omega

-- With two digits in front there is no `0x`.
theorem withoutPrefix_behind (hlen : 2 ≤ digits.length) (hdigits : ∀ c ∈ digits, digitValue c < 16)
    (rest : CString) : withoutPrefix 16 (digits ++ rest) = digits ++ rest := by
  match digits, hlen with
  | first :: x :: digits, _ =>
      have hx : digitValue x < 16 := hdigits x (by simp)
      unfold withoutPrefix
      split
      · next x' digit rest' heq =>
          obtain ⟨-, hsecond⟩ := List.cons.inj heq
          obtain ⟨rfl, -⟩ := List.cons.inj hsecond
          refine (if_neg fun h => ?_).trans heq.symm
          rcases h.2.1 with rfl | rfl <;> exact absurd hx (by decide)
      · rfl

theorem fgetsLine_append (hline : ∀ c ∈ digits, c ≠ '\n') (rest : CString) :
    fgetsLine (digits ++ rest) = digits ++ fgetsLine rest := by
  have hall : ∀ c ∈ digits, decide (c ≠ '\n') = true := fun c hmem => decide_eq_true (hline c hmem)
  unfold fgetsLine
  rw [List.takeWhile_append_of_pos hall, List.dropWhile_append_of_pos hall, List.append_assoc]

theorem parseNumber_hexPadded (data : UWORD) (hstop : ∀ c ∈ rest.head?, 16 ≤ digitValue c) :
    (parseNumber 16 (hexPadded data ++ rest)).1 = min (data.toNat : Int) (2 ^ 63 - 1) := by
  obtain ⟨hdigits, hnumber⟩ := hexPadded_digits data
  obtain ⟨hshort, -⟩ := hexPadded_length data
  have hne : hexPadded data ≠ [] := List.ne_nil_of_length_pos (by omega)
  have hsign := signOf_digits hne (fun c hmem => (hdigits c hmem).trans (by decide)) rest
  have hread := parseDigits_stop hne hdigits hstop (withoutPrefix_behind (by omega) hdigits rest)
  rw [parseNumber_eq, hsign, hread, hnumber]
  dsimp only
  rw [if_neg Bool.false_ne_true]
  omega

end Padded

-- The start of the first mapping is the load address, unless `strtoll` cuts it off. Up to
-- sixteen digits are read, and the dash where there is one among the sixteen characters.
theorem getLoadAddress_maps_iff (start : UWORD) (rest : CString) :
    getLoadAddress (some (hexPadded start ++ '-' :: rest)) = some start ↔ start.toNat < 2 ^ 63 := by
  obtain ⟨hdigits, -⟩ := hexPadded_digits start
  obtain ⟨hshort, hlong⟩ := hexPadded_length start
  have hline : ∀ c ∈ hexPadded start, c ≠ '\n' := by
    rintro c hmem rfl
    exact absurd (hdigits _ hmem) (by decide)
  have htake : (hexPadded start ++ '-' :: rest).take 16 =
      hexPadded start ++ ('-' :: rest).take (16 - (hexPadded start).length) := by
    rw [List.take_append, List.take_of_length_le hlong]
  have hstop : ∀ c ∈ (fgetsLine (('-' :: rest).take (16 - (hexPadded start).length))).head?,
      16 ≤ digitValue c := by
    cases 16 - (hexPadded start).length with
    | zero => exact fun c hmem => nomatch hmem
    | succ room =>
        intro c hmem
        obtain rfl : '-' = c := Option.some.inj hmem
        decide
  have hne : fgetsLine ((hexPadded start ++ '-' :: rest).take 16) ≠ [] := by
    rw [htake, fgetsLine_append hline]
    exact List.append_ne_nil_of_left_ne_nil (List.ne_nil_of_length_pos (by omega)) _
  have hload : getLoadAddress (some (hexPadded start ++ '-' :: rest)) = some (typedAddr start) := by
    refine (if_neg hne).trans (congrArg some ?_)
    rw [htake, fgetsLine_append hline, parseNumber_hexPadded start hstop]
    rfl
  rw [hload, Option.some.injEq]
  exact typedAddr_eq_iff start

example : getLoadAddress (some "555555554000-555555556000 r--p".toList) = some 0x555555554000 := by
  decide +kernel

end VDebugger
