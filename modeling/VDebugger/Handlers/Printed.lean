import VDebugger.Handlers.Named
import VDebugger.Var.Integers

namespace VDebugger

open Machine HandlerM

section Digits

variable {base n : Nat} {c : Char} {digits rest : CString}

theorem digitValue_digitChar (h : n < 16) : digitValue n.digitChar = n := by
  have hall : ∀ n < 16, digitValue (Nat.digitChar n) = n := by decide
  exact hall n h

theorem toDigits_digits (hlow : 1 < base) (hhigh : base ≤ 16) (n : Nat) :
    (∀ c ∈ Nat.toDigits base n, digitValue c < base) ∧ numberOf base (Nat.toDigits base n) = n := by
  have hone {d : Nat} (hd : d < base) : digitValue d.digitChar = d :=
    digitValue_digitChar (Nat.lt_of_lt_of_le hd hhigh)
  induction n using Nat.strongRecOn with
  | _ n ih =>
      rw [Nat.toDigits_eq_if hlow]
      split_ifs with hn
      · simp [numberOf, hone hn, hn]
      · have hlast : n % base < base := Nat.mod_lt n (by omega)
        obtain ⟨hdigits, hnumber⟩ := ih (n / base) (Nat.div_lt_self (by omega) hlow)
        constructor
        · intro c hmem
          rcases List.mem_append.mp hmem with hmem | hmem
          · exact hdigits c hmem
          · rw [List.mem_singleton.mp hmem, hone hlast]
            exact hlast
        · rw [numberOf_concat, hnumber, hone hlast]
          exact Nat.div_add_mod' n base

-- No blank and no sign is a digit.
theorem plain_of_digitValue (h : digitValue c < 36) : isSpace c = false ∧ c ≠ '-' ∧ c ≠ '+' := by
  have hnot (other : Char) (hother : digitValue other = 36) : c ≠ other := by
    rintro rfl
    omega
  have hspace : isSpace c = false := by
    simp [isSpace, isWhitespace, hnot ' ' (by decide), hnot '\t' (by decide), hnot '\r' (by decide),
      hnot '\n' (by decide), hnot '\x0b' (by decide), hnot '\x0c' (by decide)]
  exact ⟨hspace, hnot '-' (by decide), hnot '+' (by decide)⟩

theorem signOf_digits (hne : digits ≠ []) (hdigits : ∀ c ∈ digits, digitValue c < 36)
    (rest : CString) : signOf (digits ++ rest) = (false, digits ++ rest) := by
  cases digits with
  | nil => exact absurd rfl hne
  | cons c digits =>
      obtain ⟨hspace, hminus, hplus⟩ := plain_of_digitValue (hdigits c List.mem_cons_self)
      have hdrop : (c :: (digits ++ rest)).dropWhile isSpace = c :: (digits ++ rest) := by
        rw [List.dropWhile_cons_of_neg (by simp [hspace])]
      unfold signOf
      rw [List.cons_append, hdrop]
      split
      · next heq => exact absurd (List.cons.inj heq).1 hminus
      · next heq => exact absurd (List.cons.inj heq).1 hplus
      · rfl

-- Digits up to something that is none are read as the number they are.
theorem parseDigits_stop (hne : digits ≠ []) (hdigits : ∀ c ∈ digits, digitValue c < base)
    (hstop : ∀ c ∈ rest.head?, base ≤ digitValue c)
    (hplain : withoutPrefix base (digits ++ rest) = digits ++ rest) :
    parseDigits base (digits ++ rest) = some (numberOf base digits, rest) := by
  have hall : ∀ c ∈ digits, decide (digitValue c < base) = true := fun c hmem =>
    decide_eq_true (hdigits c hmem)
  have hrest : rest.takeWhile (fun c => decide (digitValue c < base)) = [] ∧
      rest.dropWhile (fun c => decide (digitValue c < base)) = rest := by
    cases rest with
    | nil => exact ⟨rfl, rfl⟩
    | cons c rest =>
        have hc := hstop c rfl
        have hnot : ¬decide (digitValue c < base) = true := by simp [hc]
        exact ⟨List.takeWhile_cons_of_neg hnot, List.dropWhile_cons_of_neg hnot⟩
  unfold parseDigits
  rw [hplain]
  dsimp only
  rw [List.takeWhile_append_of_pos hall, hrest.1, List.append_nil,
    List.dropWhile_append_of_pos hall, hrest.2]
  exact if_neg hne

theorem withoutPrefix_hex (hdigits : ∀ c ∈ digits, digitValue c < 16) :
    withoutPrefix base digits = digits := by
  unfold withoutPrefix
  split
  · next x digit rest =>
      have hx := hdigits x (by simp)
      refine if_neg fun h => ?_
      rcases h.2.1 with rfl | rfl <;> exact absurd hx (by decide)
  · rfl

theorem parseDigits_ten (n : Nat) (hstop : ∀ c ∈ rest.head?, 10 ≤ digitValue c) :
    parseDigits 10 (Nat.toDigits 10 n ++ rest) = some (n, rest) := by
  obtain ⟨hdigits, hnumber⟩ := toDigits_digits (show 1 < 10 by decide) (by decide) n
  rw [parseDigits_stop Nat.toDigits_ne_nil hdigits hstop (withoutPrefix_decimal _), hnumber]

theorem parseDigits_sixteen (n : Nat) : parseDigits 16 (Nat.toDigits 16 n) = some (n, []) := by
  obtain ⟨hdigits, hnumber⟩ := toDigits_digits (show 1 < 16 by decide) (by decide) n
  have hread : parseDigits 16 (Nat.toDigits 16 n ++ []) = some (_, []) :=
    parseDigits_stop Nat.toDigits_ne_nil hdigits (by simp)
    (withoutPrefix_hex (by simpa using hdigits))
  rwa [List.append_nil, hnumber] at hread

theorem toDigits_small (hlow : 1 < base) (hhigh : base ≤ 16) :
    ∀ c ∈ Nat.toDigits base n, digitValue c < 36 := fun c hmem =>
  Nat.lt_of_lt_of_le ((toDigits_digits hlow hhigh n).1 c hmem) (by omega)

-- `strtoll` reads back what `%lli` has written.
theorem parseNumber_decimal {n : Int} (hlow : -2 ^ 63 ≤ n) (hhigh : n < 2 ^ 63)
    (hstop : ∀ c ∈ rest.head?, 10 ≤ digitValue c) :
    parseNumber 10 (decimal n ++ rest) = (n, rest) := by
  by_cases hsign : n < 0
  · have hspace : ('-' :: (Nat.toDigits 10 n.natAbs ++ rest)).dropWhile isSpace =
        '-' :: (Nat.toDigits 10 n.natAbs ++ rest) := List.dropWhile_cons_of_neg (by decide)
    have hminus : signOf (decimal n ++ rest) = (true, Nat.toDigits 10 n.natAbs ++ rest) := by
      simp only [decimal, if_pos hsign, signOf, List.cons_append, hspace]
    rw [parseNumber_eq, hminus, parseDigits_ten _ hstop]
    dsimp only
    rw [if_pos rfl]
    exact congrArg (·, rest) (by omega)
  · have hplain : signOf (decimal n ++ rest) = (false, Nat.toDigits 10 n.natAbs ++ rest) := by
      rw [decimal, if_neg hsign]
      exact signOf_digits Nat.toDigits_ne_nil (toDigits_small (by decide) (by decide)) rest
    rw [parseNumber_eq, hplain, parseDigits_ten _ hstop]
    dsimp only
    rw [if_neg Bool.false_ne_true]
    exact congrArg (·, rest) (by omega)

-- What `%llx` has written is read back up to LLONG_MAX.
theorem parseNumber_formatHex (data : UWORD) :
    parseNumber 16 (formatHex data) = (min (data.toNat : Int) (2 ^ 63 - 1), []) := by
  have hsign : signOf (formatHex data) = (false, formatHex data) := by
    have hdigits : signOf (formatHex data ++ []) = (false, formatHex data ++ []) :=
      signOf_digits Nat.toDigits_ne_nil (toDigits_small (by decide) (by decide)) []
    rwa [List.append_nil] at hdigits
  rw [parseNumber_eq, hsign, formatHex, parseDigits_sixteen]
  dsimp only
  rw [if_neg Bool.false_ne_true]
  exact congrArg (·, ([] : CString)) (by omega)

end Digits

end VDebugger
