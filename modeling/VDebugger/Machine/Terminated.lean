import Mathlib.Data.List.Basic

namespace VDebugger.Machine

section Terminated

variable {α : Type}

-- A text written into a buffer at an offset, with the terminator behind it.
def writeText (terminator : α) (buffer : List α) (offset : Nat) (text : List α) : List α :=
  buffer.take offset ++ text ++ terminator :: buffer.drop (offset + text.length + 1)

-- The text that begins at an offset, up to the first terminator.
def textAt [DecidableEq α] (terminator : α) (buffer : List α) (offset : Nat) : List α :=
  (buffer.drop offset).takeWhile (· ≠ terminator)

variable {terminator : α} {buffer : List α} {offset : Nat} {text more : List α}

theorem length_writeText (hfits : offset + text.length < buffer.length) :
    (writeText terminator buffer offset text).length = buffer.length := by
  simp only [writeText, List.length_append, List.length_take, List.length_cons, List.length_drop]
  omega

theorem take_writeText (hfits : offset + text.length < buffer.length) :
    (writeText terminator buffer offset text).take (offset + text.length) =
      buffer.take offset ++ text := by
  have hlength : (buffer.take offset ++ text).length = offset + text.length := by
    simp only [List.length_append, List.length_take]
    omega
  exact List.take_left' hlength

-- The first of two texts fits where both do.
theorem fits_of_append {n : Nat} (hfits : offset + (text ++ more).length < n) :
    offset + text.length < n := by
  rw [List.length_append] at hfits
  omega

-- What is behind the terminator is left as it was.
theorem drop_writeText (hfits : offset + text.length < buffer.length) (n : Nat) :
    (writeText terminator buffer offset text).drop (offset + text.length + 1 + n) =
      buffer.drop (offset + text.length + 1 + n) := by
  have hlength : (buffer.take offset ++ text ++ [terminator]).length = offset + text.length + 1 := by
    simp only [List.length_append, List.length_take, List.length_singleton]
    omega
  have hsplit : writeText terminator buffer offset text =
      (buffer.take offset ++ text ++ [terminator]) ++ buffer.drop (offset + text.length + 1) := by
    simp only [writeText, List.append_assoc, List.singleton_append]
  calc (writeText terminator buffer offset text).drop (offset + text.length + 1 + n)
      = ((writeText terminator buffer offset text).drop (offset + text.length + 1)).drop n :=
        List.drop_drop.symm
    _ = (buffer.drop (offset + text.length + 1)).drop n := by rw [hsplit, List.drop_left' hlength]
    _ = buffer.drop (offset + text.length + 1 + n) := List.drop_drop

-- A text written where another one ends takes the place of its terminator.
theorem writeText_append (hfits : offset + text.length + more.length < buffer.length) :
    writeText terminator (writeText terminator buffer offset text) (offset + text.length) more =
      writeText terminator buffer offset (text ++ more) := by
  have hfirst : offset + text.length < buffer.length := by omega
  have hbehind : offset + text.length + more.length + 1 =
      offset + text.length + 1 + more.length := by omega
  have htotal : offset + (text ++ more).length + 1 = offset + text.length + 1 + more.length := by
    rw [List.length_append]
    omega
  rw [writeText, take_writeText hfirst, hbehind, drop_writeText hfirst, ← htotal]
  simp only [writeText, List.append_assoc]

theorem textAt_writeText [DecidableEq α] (hfits : offset + text.length < buffer.length)
    (hterm : terminator ∉ text) :
    textAt terminator (writeText terminator buffer offset text) offset = text := by
  have hlength : (buffer.take offset).length = offset := by
    rw [List.length_take]
    omega
  have hall : ∀ a ∈ text, decide (a ≠ terminator) = true := fun a ha =>
    decide_eq_true fun h => hterm (h ▸ ha)
  unfold textAt writeText
  rw [List.append_assoc, List.drop_left' hlength, List.takeWhile_append_of_pos hall]
  simp

-- Behind texts that end in the buffer, the last one is the one that is read.
theorem textAt_writeText_append [DecidableEq α]
    (hfits : offset + text.length + more.length < buffer.length) (hterm : terminator ∉ more) :
    textAt terminator (writeText terminator buffer offset (text ++ more)) (offset + text.length) =
      more := by
  rw [← writeText_append hfits]
  refine textAt_writeText ?_ hterm
  rw [length_writeText (by omega)]
  exact hfits

end Terminated

end VDebugger.Machine
