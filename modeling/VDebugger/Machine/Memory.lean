import Mathlib.Logic.Function.Basic
import Mathlib.Algebra.Order.Ring.Int

namespace VDebugger.Machine

abbrev Byte := BitVec 8

abbrev Word := BitVec 64

-- Addresses are natural numbers. A word at `a` is the eight bytes from `a` on,
-- without wrap-around at the top of the address space.
abbrev Memory := Nat → Byte

def byteOf (word : Word) (i : Nat) : Byte :=
  word.extractLsb' (8 * i) 8

-- The word whose least significant byte is at `a`.
def readWord (mem : Memory) (a : Nat) : Word :=
  mem (a + 7) ++ mem (a + 6) ++ mem (a + 5) ++ mem (a + 4) ++
    mem (a + 3) ++ mem (a + 2) ++ mem (a + 1) ++ mem a

def writeWord (mem : Memory) (a : Nat) (word : Word) : Memory :=
  fun x => if a ≤ x ∧ x < a + 8 then byteOf word (x - a) else mem x

-- The word with its least significant byte replaced.
def setLowByte (word : Word) (byte : Byte) : Word :=
  (word &&& ~~~0xff#64) ||| byte.setWidth 64

theorem word_ext (w v : Word) (h : ∀ i < 8, byteOf w i = byteOf v i) : w = v := by
  apply BitVec.eq_of_getLsbD_eq
  intro j hj
  have hb := congrArg (BitVec.getLsbD · (j % 8)) (h (j / 8) (by omega))
  have hm : j % 8 < 8 := Nat.mod_lt _ (by omega)
  simpa only [byteOf, BitVec.getLsbD_extractLsb', hm, decide_true, Bool.true_and,
    Nat.div_add_mod] using hb

theorem byteOf_readWord (mem : Memory) (a i : Nat) (hi : i < 8) :
    byteOf (readWord mem a) i = mem (a + i) := by
  apply BitVec.eq_of_getLsbD_eq
  intro j hj
  have hcases : i = 0 ∨ i = 1 ∨ i = 2 ∨ i = 3 ∨ i = 4 ∨ i = 5 ∨ i = 6 ∨ i = 7 := by omega
  rcases hcases with rfl | rfl | rfl | rfl | rfl | rfl | rfl | rfl
  all_goals
    simp only [byteOf, readWord, BitVec.getLsbD_extractLsb', BitVec.getLsbD_append, hj]
    grind

theorem getLsbD_highMask (k : Nat) (hk : k < 64) :
    (~~~0xff#64).getLsbD k = decide (8 ≤ k) := by
  have h : ∀ k : Fin 64, (~~~0xff#64).getLsbD k = decide (8 ≤ k.val) := by decide
  exact h ⟨k, hk⟩

theorem getLsbD_setLowByte (word : Word) (byte : Byte) (k : Nat) (hk : k < 64) :
    (setLowByte word byte).getLsbD k = if k < 8 then byte.getLsbD k else word.getLsbD k := by
  simp only [setLowByte, BitVec.getLsbD_or, BitVec.getLsbD_and, getLsbD_highMask k hk,
    BitVec.getLsbD_setWidth, hk, decide_true, Bool.true_and]
  by_cases h : k < 8
  · simp [h, show ¬8 ≤ k by omega]
  · simp [h, show 8 ≤ k by omega]

theorem byteOf_setLowByte_zero (word : Word) (byte : Byte) :
    byteOf (setLowByte word byte) 0 = byte := by
  apply BitVec.eq_of_getLsbD_eq
  intro j hj
  simp only [byteOf, BitVec.getLsbD_extractLsb', hj, decide_true, Bool.true_and]
  rw [getLsbD_setLowByte _ _ _ (by omega), if_pos (by omega), Nat.mul_zero, Nat.zero_add]

theorem byteOf_setLowByte_pos (word : Word) (byte : Byte) (i : Nat) (hp : 0 < i) (hi : i < 8) :
    byteOf (setLowByte word byte) i = byteOf word i := by
  apply BitVec.eq_of_getLsbD_eq
  intro j hj
  simp only [byteOf, BitVec.getLsbD_extractLsb', hj, decide_true, Bool.true_and]
  rw [getLsbD_setLowByte _ _ _ (by omega), if_neg (by omega)]

theorem byteOf_setLowByte (word : Word) (byte : Byte) (i : Nat) (hi : i < 8) :
    byteOf (setLowByte word byte) i = if i = 0 then byte else byteOf word i := by
  split
  · next h => rw [h, byteOf_setLowByte_zero]
  · exact byteOf_setLowByte_pos word byte i (by omega) hi

theorem writeWord_inside (mem : Memory) (a x : Nat) (word : Word) (hl : a ≤ x) (hr : x < a + 8) :
    writeWord mem a word x = byteOf word (x - a) := by
  simp [writeWord, hl, hr]

theorem writeWord_outside (mem : Memory) (a x : Nat) (word : Word) (h : x < a ∨ a + 8 ≤ x) :
    writeWord mem a word x = mem x := by
  have hn : ¬(a ≤ x ∧ x < a + 8) := by omega
  simp [writeWord, hn]

@[simp] theorem readWord_writeWord (mem : Memory) (a : Nat) (word : Word) :
    readWord (writeWord mem a word) a = word := by
  apply word_ext
  intro i hi
  rw [byteOf_readWord _ _ _ hi, writeWord_inside _ _ _ _ (by omega) (by omega)]
  congr 1
  omega

@[simp] theorem writeWord_readWord (mem : Memory) (a : Nat) :
    writeWord mem a (readWord mem a) = mem := by
  funext x
  by_cases h : a ≤ x ∧ x < a + 8
  · rw [writeWord_inside _ _ _ _ h.1 h.2, byteOf_readWord _ _ _ (by omega)]
    congr 1
    omega
  · exact writeWord_outside _ _ _ _ (by omega)

theorem readWord_congr (m n : Memory) (a : Nat) (h : ∀ i < 8, m (a + i) = n (a + i)) :
    readWord m a = readWord n a := by
  apply word_ext
  intro i hi
  rw [byteOf_readWord _ _ _ hi, byteOf_readWord _ _ _ hi, h i hi]

-- Writing a word back with only its low byte replaced changes one byte.
theorem writeWord_setLowByte (mem : Memory) (a : Nat) (byte : Byte) :
    writeWord mem a (setLowByte (readWord mem a) byte) = Function.update mem a byte := by
  funext x
  by_cases h : a ≤ x ∧ x < a + 8
  · rw [writeWord_inside _ _ _ _ h.1 h.2, byteOf_setLowByte _ _ _ (by omega)]
    by_cases hx : x = a
    · subst x
      simp
    · rw [if_neg (by omega), byteOf_readWord _ _ _ (by omega), Function.update_of_ne hx]
      congr 1
      omega
  · rw [writeWord_outside _ _ _ _ (by omega), Function.update_of_ne (by omega)]

theorem readWord_update (mem : Memory) (a : Nat) (byte : Byte) :
    readWord (Function.update mem a byte) a = setLowByte (readWord mem a) byte := by
  rw [← writeWord_setLowByte, readWord_writeWord]

-- Writing the word of another memory takes its eight bytes over.
theorem writeWord_readWord_apply (m n : Memory) (a x : Nat) :
    writeWord m a (readWord n a) x = if a ≤ x ∧ x < a + 8 then n x else m x := by
  split
  · next h =>
    rw [writeWord_inside _ _ _ _ h.1 h.2, byteOf_readWord _ _ _ (by omega),
      Nat.add_sub_cancel' h.1]
  · next h => exact writeWord_outside _ _ _ _ (by omega)

-- Putting the int3 back over a written word is writing the patched word.
theorem update_writeWord (mem : Memory) (a : Nat) (word : Word) (byte : Byte) :
    Function.update (writeWord mem a word) a byte = writeWord mem a (setLowByte word byte) := by
  funext x
  by_cases hx : x = a
  · subst hx
    rw [Function.update_self, writeWord_inside _ _ _ _ (by omega) (by omega), Nat.sub_self,
      byteOf_setLowByte_zero]
  · rw [Function.update_of_ne hx]
    by_cases hin : a ≤ x ∧ x < a + 8
    · rw [writeWord_inside _ _ _ _ hin.1 hin.2, writeWord_inside _ _ _ _ hin.1 hin.2,
        byteOf_setLowByte_pos _ _ _ (by omega) (by omega)]
    · rw [writeWord_outside _ _ _ _ (by omega), writeWord_outside _ _ _ _ (by omega)]

end VDebugger.Machine
