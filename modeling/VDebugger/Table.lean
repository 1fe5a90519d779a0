import VDebugger.Registers

namespace VDebugger

structure Breakpoint where
  memAddr : WORD
  savedData : WORD
  enabled : Bool
  temporaryEnable : Bool
  deriving DecidableEq, Repr

-- The hash map of breakpoints under `breakpoint_hash` and `breakpoint_cmp`: an
-- entry is found under its own address.
structure Table where
  find : WORD → Option Breakpoint
  keyed : ∀ a bp, find a = some bp → bp.memAddr = a

namespace Table

def empty : Table := ⟨fun _ => none, fun _ _ h => nomatch h⟩

def set (table : Table) (bp : Breakpoint) : Table where
  find := Function.update table.find bp.memAddr (some bp)
  keyed a found h := by
    by_cases ha : a = bp.memAddr
    · subst a
      rw [Function.update_self] at h
      cases h
      rfl
    · rw [Function.update_of_ne ha] at h
      exact table.keyed a found h

def delete (table : Table) (bp : Breakpoint) : Table where
  find := Function.update table.find bp.memAddr none
  keyed a found h := by
    by_cases ha : a = bp.memAddr
    · subst a
      rw [Function.update_self] at h
      cases h
    · rw [Function.update_of_ne ha] at h
      exact table.keyed a found h

@[simp] theorem find_set_self (table : Table) (bp : Breakpoint) :
    (table.set bp).find bp.memAddr = some bp := Function.update_self ..

theorem find_set_of_ne (table : Table) (bp : Breakpoint) {a : WORD} (h : a ≠ bp.memAddr) :
    (table.set bp).find a = table.find a := Function.update_of_ne h ..

@[simp] theorem find_delete_self (table : Table) (bp : Breakpoint) :
    (table.delete bp).find bp.memAddr = none := Function.update_self ..

theorem find_delete_of_ne (table : Table) (bp : Breakpoint) {a : WORD} (h : a ≠ bp.memAddr) :
    (table.delete bp).find a = table.find a := Function.update_of_ne h ..

theorem ext_find {table other : Table} (h : ∀ a, table.find a = other.find a) : table = other := by
  obtain ⟨find, keyed⟩ := table
  obtain ⟨find', keyed'⟩ := other
  obtain rfl : find = find' := funext h
  rfl

theorem delete_of_absent {table : Table} {bp : Breakpoint} (h : table.find bp.memAddr = none) :
    table.delete bp = table := by
  apply ext_find
  intro a
  by_cases ha : a = bp.memAddr
  · subst a
    rw [find_delete_self, h]
  · exact find_delete_of_ne table bp ha

-- Whether the table marks the breakpoint at `a` enabled.
def enabledAt (table : Table) (a : WORD) : Prop :=
  ∃ bp, table.find a = some bp ∧ bp.enabled = true

@[simp] theorem not_enabledAt_empty (a : WORD) : ¬empty.enabledAt a := by
  rintro ⟨bp, h, _⟩
  cases h

theorem enabledAt_set (table : Table) (bp : Breakpoint) (hon : bp.enabled = true) (a : WORD) :
    (table.set bp).enabledAt a ↔ a = bp.memAddr ∨ table.enabledAt a := by
  unfold enabledAt
  by_cases ha : a = bp.memAddr
  · subst a
    simp [hon]
  · rw [find_set_of_ne table bp ha]
    simp [ha]

theorem enabledAt_delete (table : Table) (bp : Breakpoint) (a : WORD) :
    (table.delete bp).enabledAt a ↔ a ≠ bp.memAddr ∧ table.enabledAt a := by
  unfold enabledAt
  by_cases ha : a = bp.memAddr
  · subst a
    simp
  · rw [find_delete_of_ne table bp ha]
    simp [ha]

end Table

end VDebugger
