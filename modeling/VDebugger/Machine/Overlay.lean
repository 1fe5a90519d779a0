import VDebugger.Machine.Memory
import Mathlib.Data.Set.Insert

namespace VDebugger.Machine

-- `mem` is `image` with `byte` written over every address of `marks`.
def Overlay (byte : Byte) (marks : Set Nat) (image mem : Memory) : Prop :=
  ∀ a, (a ∈ marks → mem a = byte) ∧ (a ∉ marks → mem a = image a)

namespace Overlay

variable {byte : Byte} {marks : Set Nat} {image mem : Memory}

theorem refl (byte : Byte) (mem : Memory) : Overlay byte ∅ mem mem :=
  fun _ => ⟨fun h => h.elim, fun _ => rfl⟩

theorem unique {other : Memory} (h : Overlay byte marks image mem)
    (h' : Overlay byte marks image other) : mem = other := by
  funext a
  by_cases ha : a ∈ marks
  · rw [(h a).1 ha, (h' a).1 ha]
  · rw [(h a).2 ha, (h' a).2 ha]

theorem mark (h : Overlay byte marks image mem) (a : Nat) :
    Overlay byte (insert a marks) image (Function.update mem a byte) := by
  intro x
  by_cases hx : x = a
  · subst x
    simp
  · simp only [Set.mem_insert_iff, hx, false_or, Function.update_of_ne hx]
    exact h x

-- A mark that was lifted is put back.
theorem putBack {a : Nat} (h : Overlay byte (marks \ {a}) image mem) (ha : a ∈ marks) :
    Overlay byte marks image (Function.update mem a byte) := by
  have hsame : insert a (marks \ {a}) = marks := by
    ext x
    simp only [Set.mem_insert_iff, Set.mem_sdiff, Set.mem_singleton_iff]
    by_cases hx : x = a <;> simp [hx, ha]
  rw [← hsame]
  exact h.mark a

-- A word written at `a` lifts the mark at `a` and keeps the others, as long as none
-- of them lies in the seven bytes behind `a`.
theorem writeWord (h : Overlay byte marks image mem) (a : Nat) (word : Word)
    (hfar : ∀ x ∈ marks, a < x → a + 8 ≤ x) :
    Overlay byte (marks \ {a}) (writeWord image a word) (writeWord mem a word) := by
  intro x
  by_cases hin : a ≤ x ∧ x < a + 8
  · rw [writeWord_inside _ _ _ _ hin.1 hin.2, writeWord_inside _ _ _ _ hin.1 hin.2]
    refine ⟨fun hm => ?_, fun _ => rfl⟩
    have hne : x ≠ a := hm.2
    have hx := hfar x hm.1 (by omega)
    omega
  · rw [writeWord_outside _ _ _ _ (by omega), writeWord_outside _ _ _ _ (by omega)]
    have hne : x ≠ a := by omega
    simpa [hne] using h x

-- The image's own word written back at `a` lifts all marks within its eight bytes.
theorem liftWord (h : Overlay byte marks image mem) (a : Nat) (word : Word)
    (hword : ∀ i < 8, byteOf word i = image (a + i)) :
    Overlay byte {x | x ∈ marks ∧ ¬(a ≤ x ∧ x < a + 8)} image (Machine.writeWord mem a word) := by
  intro x
  by_cases hin : a ≤ x ∧ x < a + 8
  · rw [writeWord_inside _ _ _ _ hin.1 hin.2]
    refine ⟨fun hm => absurd hin hm.2, fun _ => ?_⟩
    rw [hword _ (by omega), Nat.add_sub_cancel' hin.1]
  · rw [writeWord_outside _ _ _ _ (by omega)]
    exact ⟨fun hm => (h x).1 hm.1, fun hm => (h x).2 fun hx => hm ⟨hx, hin⟩⟩

-- Writing the image's own word back leaves the image as it is.
theorem writeBack (h : Overlay byte marks image mem) (a : Nat) (word : Word)
    (hword : ∀ i < 8, byteOf word i = image (a + i))
    (hfar : ∀ x ∈ marks, a < x → a + 8 ≤ x) :
    Overlay byte (marks \ {a}) image (Machine.writeWord mem a word) := by
  have hsame : word = readWord image a :=
    word_ext _ _ fun i hi => (hword i hi).trans (byteOf_readWord _ _ _ hi).symm
  have hback := h.writeWord a word hfar
  rwa [hsame, writeWord_readWord, ← hsame] at hback

end Overlay

end VDebugger.Machine
