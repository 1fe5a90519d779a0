import VDebugger.LocExpr.Passes

namespace VDebugger

open Machine Reference

variable {env : ExprEnv} {locInfo : LocInfo} {s : LocExpr} {rest : Stack} {loc : LocOp}

inductive Shift where
  | shl | shr | shra
  deriving DecidableEq, Repr

namespace Shift

def op : Shift → DwOp
  | shl => .DW_OP_shl
  | shr => .DW_OP_shr
  | shra => .DW_OP_shra

-- The shifts of the DWARF machine as arithmetic on the former second entry, by the former
-- top. The last two round down.
def value : Shift → UWORD → UWORD → UWORD
  | shl, second, top => BitVec.ofNat 64 (second.toNat * 2 ^ top.toNat)
  | shr, second, top => BitVec.ofNat 64 (second.toNat / 2 ^ top.toNat)
  | shra, second, top => BitVec.ofInt 64 (second.toInt / 2 ^ top.toNat)

-- What the three functions push.
def pushed : Shift → UWORD → UWORD → UWORD
  | shl, c, b => if b ≥ 64 then 0 else c >>> b.toNat
  | shr, c, b => if b ≥ 64 then 0 else c <<< b.toNat
  | shra, c, b =>
      if b ≥ 64 then 0 else if c.toInt < 0 then -((-c) >>> b.toNat) else c >>> b.toNat

-- The word is the same shifted so far to the left and to the right.
def Balanced (word : UWORD) (count : Nat) : Prop :=
  ∀ i < 64, word.getLsbD (i + count) = (decide (count ≤ i) && word.getLsbD (i - count))

-- Where the function and the machine agree.
def Right : Shift → UWORD → UWORD → Prop
  | shl, second, top => Balanced second top.toNat
  | shr, second, top => Balanced second top.toNat
  | shra, second, top => 0 ≤ second.toInt ∨ top.toNat < 64 ∧ (2 ^ top.toNat : Int) ∣ second.toInt

end Shift

theorem shiftLeft_eq_shiftRight_iff (word : UWORD) (count : Nat) :
    word <<< count = word >>> count ↔ Shift.Balanced word count := by
  constructor
  · intro h i hi
    have hbit := congrArg (fun v => BitVec.getLsbD v i) h
    simp only [BitVec.getLsbD_shiftLeft, BitVec.getLsbD_ushiftRight, hi, decide_true,
      Bool.true_and] at hbit
    rw [Nat.add_comm i count, ← hbit]
    by_cases hlow : i < count
    · simp [hlow]
    · simp [hlow, show count ≤ i by omega]
  · intro h
    apply BitVec.eq_of_getLsbD_eq
    intro i hi
    have hbit := h i hi
    rw [BitVec.getLsbD_shiftLeft, BitVec.getLsbD_ushiftRight, Nat.add_comm count i, hbit]
    by_cases hlow : i < count
    · simp [hlow]
    · simp [hlow, hi, show count ≤ i by omega]

theorem value_shl (second top : UWORD) : Shift.shl.value second top = second <<< top.toNat := by
  apply BitVec.eq_of_toNat_eq
  simp only [Shift.value, BitVec.toNat_ofNat, BitVec.toNat_shiftLeft, Nat.shiftLeft_eq]

theorem value_shr (second top : UWORD) : Shift.shr.value second top = second >>> top.toNat := by
  apply BitVec.eq_of_toNat_eq
  have hle : second.toNat / 2 ^ top.toNat ≤ second.toNat := Nat.div_le_self _ _
  have hlt := second.isLt
  simp only [Shift.value, BitVec.toNat_ofNat, BitVec.toNat_ushiftRight, Nat.shiftRight_eq_div_pow]
  exact Nat.mod_eq_of_lt (by omega)

theorem ge_width_iff (b : UWORD) : b ≥ 64 ↔ 64 ≤ b.toNat := by
  rw [ge_iff_le, BitVec.le_def]
  rfl

-- Beyond the width nothing is left of the word, so that the functions need no case for it.
theorem pushed_shl (c b : UWORD) : Shift.shl.pushed c b = c >>> b.toNat := by
  simp only [Shift.pushed]
  split
  · next hwide => exact (BitVec.ushiftRight_eq_zero ((ge_width_iff b).mp hwide)).symm
  · rfl

theorem pushed_shr (c b : UWORD) : Shift.shr.pushed c b = c <<< b.toNat := by
  simp only [Shift.pushed]
  split
  · next hwide => exact (BitVec.shiftLeft_eq_zero ((ge_width_iff b).mp hwide)).symm
  · rfl

-- A word that is not negative is shifted as an unsigned one.
theorem shra_nonneg {c : UWORD} (b : UWORD) (hc : 0 ≤ c.toInt) :
    Shift.shra.pushed c b = Shift.shra.value c b := by
  have hvalue : Shift.shra.value c b = c >>> b.toNat := by
    rw [← value_shr]
    have hnat : c.toInt = c.toNat := by
      rw [BitVec.toInt_eq_toNat_cond] at hc ⊢
      split at hc <;> omega
    simp only [Shift.value, hnat]
    have hdiv : (c.toNat : Int) / 2 ^ b.toNat = ((c.toNat / 2 ^ b.toNat : Nat) : Int) := by
      push_cast
      rfl
    rw [hdiv, BitVec.ofInt_natCast]
  rw [hvalue]
  simp only [Shift.pushed]
  split
  · next hwide => exact (BitVec.ushiftRight_eq_zero ((ge_width_iff b).mp hwide)).symm
  · rw [if_neg (by omega)]

-- A negative word past the width leaves -1, not 0.
theorem shra_negative_wide {c b : UWORD} (hc : c.toInt < 0) (hb : 64 ≤ b.toNat) :
    Shift.shra.pushed c b ≠ Shift.shra.value c b := by
  have hpower : (2 : Int) ^ 64 ≤ 2 ^ b.toNat := by
    exact_mod_cast Nat.pow_le_pow_right (by omega : 0 < 2) hb
  have hlow := BitVec.le_toInt c
  have hdiv : c.toInt / 2 ^ b.toNat = -1 := Int.ediv_eq_neg_one_of_neg_of_le hc (by omega)
  simp only [Shift.pushed, Shift.value, (ge_width_iff b).mpr hb, if_true, hdiv]
  decide

-- Negating, shifting and negating back rounds up: the result is right where there is
-- nothing to round.
theorem shra_negative_iff {c b : UWORD} (hc : c.toInt < 0) (hb : b.toNat < 64) :
    Shift.shra.pushed c b = Shift.shra.value c b ↔ (2 ^ b.toNat : Int) ∣ c.toInt := by
  have hmagnitude : c.toInt = -((-c).toNat : Int) := by
    have hlt := c.isLt
    rw [BitVec.toInt_eq_toNat_cond] at hc ⊢
    rw [BitVec.toNat_neg]
    split at hc <;> omega
  have hpushed : Shift.shra.pushed c b
      = BitVec.ofInt 64 (-((-c).toNat / 2 ^ b.toNat : Int)) := by
    have hnarrow : ¬b ≥ 64 := fun hwide => by
      have hle := (ge_width_iff b).mp hwide
      omega
    have hquotient : ((-c).toNat / 2 ^ b.toNat : Int) = (((-c) >>> b.toNat).toNat : Int) := by
      rw [BitVec.toNat_ushiftRight, Nat.shiftRight_eq_div_pow]
      push_cast
      rfl
    simp only [Shift.pushed]
    rw [if_neg hnarrow, if_pos hc, hquotient, BitVec.ofInt_neg, BitVec.ofInt_natCast,
      BitVec.ofNat_toNat, BitVec.setWidth_eq]
  have hpos : (0 : Int) < 2 ^ b.toNat := Int.pow_pos (by omega)
  rw [hpushed]
  simp only [Shift.value]
  rw [hmagnitude, Int.neg_ediv, Int.dvd_neg, Int.sign_eq_one_of_pos hpos]
  generalize ((-c).toNat : Int) = magnitude
  by_cases hexact : (2 ^ b.toNat : Int) ∣ magnitude
  · rw [if_pos hexact, Int.sub_zero]
    exact iff_of_true rfl hexact
  · rw [if_neg hexact, Int.sub_eq_add_neg, BitVec.ofInt_add]
    generalize BitVec.ofInt 64 (-(magnitude / 2 ^ b.toNat)) = word
    have hless : word ≠ word + BitVec.ofInt 64 (-1) := by
      have hone : BitVec.ofInt 64 (-1) = -1#64 := rfl
      rw [hone]
      bv_omega
    exact iff_of_false hless hexact

theorem pushed_eq_value_iff (shift : Shift) (second top : UWORD) :
    shift.pushed second top = shift.value second top ↔ shift.Right second top := by
  cases shift with
  | shl =>
      rw [pushed_shl, value_shl, eq_comm]
      exact shiftLeft_eq_shiftRight_iff second top.toNat
  | shr =>
      rw [pushed_shr, value_shr]
      exact shiftLeft_eq_shiftRight_iff second top.toNat
  | shra =>
      unfold Shift.Right
      by_cases hneg : second.toInt < 0
      · have hnot : ¬0 ≤ second.toInt := by omega
        by_cases hwide : 64 ≤ top.toNat
        · have hnarrow : ¬top.toNat < 64 := by omega
          simp [shra_negative_wide hneg hwide, hnot, hnarrow]
        · have hnarrow : top.toNat < 64 := by omega
          simp [shra_negative_iff hneg hnarrow, hnot, hnarrow]
      · have hnonneg : 0 ≤ second.toInt := by omega
        simp [shra_nonneg top hnonneg, hnonneg]

-- The function takes two entries off and pushes one.
theorem popTwo_push (f : UWORD → UWORD → UWORD) {b c : UWORD}
    (h : Holds locInfo s (b :: c :: rest)) :
    ∃ t, (popStackTop >>= fun b => popStackTop >>= fun c => pushExprTkn (f c b)) s = (.ok (), t) ∧
      Holds locInfo t (f c b :: rest) := by
  have hsize := h.size
  simp only [List.length_cons] at hsize
  obtain ⟨t, hb, ht⟩ := pop_cons h
  obtain ⟨u, hc, hu⟩ := pop_cons ht
  have hpush := push_agrees hu (f c b)
  rw [limit_of_le (by rw [List.length_cons]; omega)] at hpush
  obtain ⟨v, hv, hholds⟩ := hpush
  exact ⟨v, by rw [Action.bind_of_ok hb, Action.bind_of_ok hc, hv], hholds⟩

theorem parseOpShra_eq :
    parseOpShra = popStackTop >>= fun b => popStackTop >>= fun c =>
      pushExprTkn (Shift.shra.pushed c b) := by
  have hpush (b c : UWORD) :
      (if b ≥ 64 then pushExprTkn 0
        else if c.toInt < 0 then pushExprTkn (-((-c) >>> b.toNat))
        else pushExprTkn (c >>> b.toNat)) = pushExprTkn (Shift.shra.pushed c b) := by
    simp only [Shift.pushed, apply_ite pushExprTkn]
  simp only [parseOpShra, hpush]

theorem parseOpcode_shift (env : ExprEnv) {shift : Shift} (hop : loc.op = shift.op) :
    parseOpcode env loc
      = nextOp (popStackTop >>= fun b => popStackTop >>= fun c =>
        pushExprTkn (shift.pushed c b)) := by
  cases shift with
  | shl =>
      simp only [parseOpcode, hop, Shift.op]
      rfl
  | shr =>
      simp only [parseOpcode, hop, Shift.op]
      rfl
  | shra => simp only [parseOpcode, hop, Shift.op, parseOpShra_eq]

theorem shift_leaves (env : ExprEnv) {shift : Shift} (hop : loc.op = shift.op) {b c : UWORD}
    (h : Holds s.locInfo s (b :: c :: rest)) : Leaves env loc s (shift.pushed c b :: rest) := by
  obtain ⟨t, ht, hholds⟩ := popTwo_push shift.pushed h
  exact .of_nextOp (parseOpcode_shift env hop) ht hholds

-- `shl` shifts to the right and `shr` to the left; `shra` rounds to zero.
theorem shifts_as_dwarf_iff (env : ExprEnv) (loc : LocOp) (shift : Shift) (hop : loc.op = shift.op)
    (s : LocExpr) (b c : UWORD) (rest : Stack) (h : Holds s.locInfo s (b :: c :: rest)) :
    Leaves env loc s (shift.value c b :: rest) ↔ shift.Right c b := by
  rw [(shift_leaves env hop h).iff_eq, ← pushed_eq_value_iff, List.cons_eq_cons]
  exact and_iff_left rfl

-- An evaluator that holds 1 above 8.
def oneOverEight : LocExpr where
  locInfo := {}
  opStack i := if i = 0 then 8 else 1
  stackTop := 2
  written i := i = 0 || i = 1
  accesses := []

theorem oneOverEight_holds : Holds oneOverEight.locInfo oneOverEight [1, 8] :=
  ⟨rfl, rfl, by decide, rfl, rfl, trivial⟩

theorem shra_of_eight :
    Leaves noEnv ⟨.DW_OP_shra, 0, 0, 0, 0⟩ oneOverEight
      [Shift.shra.value 8 1] :=
  (shifts_as_dwarf_iff _ _ .shra rfl _ 1 8 [] oneOverEight_holds).mpr (Or.inl (by decide))

-- 8 shifted by one to the left is 16 and to the right 4: the two are the other way round.
theorem shl_of_eight :
    Holds oneOverEight.locInfo oneOverEight [1, 8] ∧
      ¬Leaves noEnv ⟨.DW_OP_shl, 0, 0, 0, 0⟩ oneOverEight
        [Shift.shl.value 8 1] := by
  refine ⟨oneOverEight_holds, fun hleaves => ?_⟩
  have hpushed : Leaves noEnv ⟨.DW_OP_shl, 0, 0, 0, 0⟩ oneOverEight
      [Shift.shl.pushed 8 1] := shift_leaves _ rfl oneOverEight_holds
  have hword := (List.cons.inj ((hpushed.iff_eq _).mp hleaves)).1
  exact absurd hword (by decide)

end VDebugger
