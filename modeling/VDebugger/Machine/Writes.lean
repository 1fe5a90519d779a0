import VDebugger.Machine.Memory

namespace VDebugger.Machine

-- The bytes that somebody leaves changed, and the value that each of them has then.
abbrev Writes := Nat → Option Byte

namespace Writes

def empty : Writes := fun _ => none

-- What a run changes that finds `before` and leaves `after`.
def between (before after : Memory) : Writes :=
  fun a => if after a = before a then none else some (after a)

def overlay (writes : Writes) (mem : Memory) : Memory := fun a => (writes a).getD (mem a)

-- The later of two runs hides what the earlier one left in the same bytes.
def behind (later earlier : Writes) : Writes := fun a => (later a).or (earlier a)

-- What is left of them when the `n` bytes from `start` on are written anew.
def outside (writes : Writes) (start n : Nat) : Writes :=
  fun a => if start ≤ a ∧ a < start + n then none else writes a

theorem empty_overlay (mem : Memory) : empty.overlay mem = mem := rfl

theorem between_overlay (before after : Memory) :
    (between before after).overlay before = after := by
  funext a
  unfold overlay between
  split
  · next h => exact h.symm
  · rfl

theorem behind_overlay (later earlier : Writes) (mem : Memory) :
    (later.behind earlier).overlay mem = later.overlay (earlier.overlay mem) := by
  funext a
  cases h : later a <;> simp [behind, overlay, h]

theorem writeWord_overlay (writes : Writes) (mem : Memory) (a : Nat) (word : Word) :
    writeWord (writes.overlay mem) a word =
      (writes.outside a 8).overlay (writeWord mem a word) := by
  funext x
  by_cases h : a ≤ x ∧ x < a + 8
  · simp [writeWord, overlay, outside, h]
  · simp [writeWord, overlay, outside, h]

theorem update_overlay (writes : Writes) (mem : Memory) (a : Nat) (byte : Byte) :
    Function.update (writes.overlay mem) a byte =
      (writes.outside a 1).overlay (Function.update mem a byte) := by
  funext x
  by_cases h : x = a
  · subst h
    simp [overlay, outside]
  · have hout : ¬(a ≤ x ∧ x < a + 1) := by omega
    simp only [Function.update_of_ne h, overlay, outside, if_neg hout]

-- Bytes have the values they are to have if the unwritten ones had them before and the
-- written ones got them.
theorem overlay_eq_iff (writes : Writes) (mem goal : Memory) (bytes : Set Nat) :
    (∀ a ∈ bytes, writes.overlay mem a = goal a) ↔
      (∀ a ∈ {a | a ∈ bytes ∧ writes a = none}, mem a = goal a) ∧
        ∀ a ∈ bytes, ∀ byte, writes a = some byte → byte = goal a := by
  constructor
  · intro h
    refine ⟨fun a ⟨ha, hnone⟩ => ?_, fun a ha byte hsome => ?_⟩
    · have hbyte := h a ha
      rwa [overlay, hnone] at hbyte
    · have hbyte := h a ha
      rwa [overlay, hsome] at hbyte
  · rintro ⟨hnone, hsome⟩ a ha
    cases hw : writes a with
    | none => simpa [overlay, hw] using hnone a ⟨ha, hw⟩
    | some byte => simpa [overlay, hw] using hsome a ha byte hw

end Writes

end VDebugger.Machine
