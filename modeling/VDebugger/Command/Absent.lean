import VDebugger.Command.Kept

namespace VDebugger

open Machine

variable {κ : Type} {env : Env κ}

-- No entry of the table is one of a breakpoint that is off.
def Table.AllEnabled (table : Table) : Prop :=
  ∀ a bp, table.find a = some bp → bp.enabled = true

theorem Table.AllEnabled.set {table : Table} (h : table.AllEnabled) {bp : Breakpoint}
    (hon : bp.enabled = true) : (table.set bp).AllEnabled := by
  intro a found hfound
  by_cases ha : a = bp.memAddr
  · subst a
    rw [find_set_self] at hfound
    cases hfound
    exact hon
  · rw [find_set_of_ne table bp ha] at hfound
    exact h a found hfound

theorem Table.AllEnabled.delete {table : Table} (h : table.AllEnabled) (bp : Breakpoint) :
    (table.delete bp).AllEnabled := by
  intro a found hfound
  by_cases ha : a = bp.memAddr
  · subst a
    rw [find_delete_self] at hfound
    cases hfound
  · rw [find_delete_of_ne table bp ha] at hfound
    exact h a found hfound

theorem Table.AllEnabled.absent {table : Table} (h : table.AllEnabled) {a : WORD}
    (hoff : ¬table.enabledAt a) : table.find a = none := by
  cases hfind : table.find a with
  | none => rfl
  | some bp => exact absurd ⟨bp, hfind, h a bp hfind⟩ hoff

-- Nothing the debugger does files a breakpoint that is off.
theorem allEnabled_kept (env : Env κ) :
    Kept env fun s t => s.breakpoints.AllEnabled → t.breakpoints.AllEnabled where
  refl _ h := h
  trans _ _ _ h h' hs := h' (h hs)
  note _ _ _ _ h := h
  withMem _ _ h := h
  withRegs _ _ h := h
  resume _ _ h := h
  settle _ _ _ h := h
  search _ _ h := h
  trap siCode s h := by
    rwa [(recordTrap_frame siCode (handleSigtrap_frame siCode) s).breakpoints]
  insert _ _ _ _ h := h
  save _ _ hon h := h.set hon
  delete _ bp h := h.delete bp

section Disable

variable {s : Debugger κ} {x : WORD}

theorem disableAbsent_iff (habsent : s.breakpoints.find x = none) :
    let t := (handleBreakpointAt env .DISABLE_BREAKPOINT x s).2
    (t.debugee.mem = s.debugee.mem ∧ t.breakpoints = s.breakpoints) ↔
      env.fault s.log.length = true ∨ readWord s.debugee.mem x.toNat = 0 := by
  intro t
  have hlookup : s.breakpoints.lookup x = makeBreakpoint x := by
    simp only [Table.lookup, habsent]
  have hstart := handleBreakpointAt_disable_eq env s x
  rw [hlookup] at hstart
  cases hfault : env.fault s.log.length with
  | true =>
      obtain ⟨log, h⟩ := disableBreakpoint_refused (makeBreakpoint x) hfault
      have ht : t = { s with log } := congrArg Prod.snd
        (hstart.trans (Action.bind_of_error (Action.orFail_of_error h 1) _))
      rw [ht]
      exact iff_of_true ⟨rfl, rfl⟩ (.inl rfl)
  | false =>
      have h := disableBreakpoint_granted (makeBreakpoint x) hfault
      have ht : t = { (s.note (.pokeData .disable x 0) true).withMem
          (writeWord s.debugee.mem x.toNat 0) with
          breakpoints := s.breakpoints.delete (makeBreakpoint x) } := congrArg Prod.snd
        (hstart.trans (Action.bind_of_ok (Action.orFail_eq_ok.mpr h) _))
      have htable : s.breakpoints.delete (makeBreakpoint x) = s.breakpoints :=
        Table.delete_of_absent habsent
      have hmem : writeWord s.debugee.mem x.toNat 0 = s.debugee.mem ↔
          readWord s.debugee.mem x.toNat = 0 := by
        constructor
        · intro hsame
          rw [← hsame, readWord_writeWord]
        · intro hzero
          rw [← hzero, writeWord_readWord]
      rw [ht]
      simp only [Debugger.withMem, Debugger.note, htable, hmem, and_true, Bool.false_eq_true,
        false_or]

-- In every session: a `break disable` where no breakpoint is enabled changes nothing
-- exactly if the kernel refuses it or the eight bytes there are zero.
theorem disable_changes_nothing_iff (s : Debugger κ) (hempty : s.breakpoints = .empty)
    (commands : List Command) (x : WORD)
    (hoff : ¬(runDebugger env commands s).breakpoints.enabledAt x) :
    let u := runDebugger env commands s
    let t := (handleBreakpointAt env .DISABLE_BREAKPOINT x u).2
    (t.debugee.mem = u.debugee.mem ∧ t.breakpoints = u.breakpoints) ↔
      env.fault u.log.length = true ∨ readWord u.debugee.mem x.toNat = 0 := by
  intro u
  have hstart : s.breakpoints.AllEnabled := by
    rw [hempty]
    exact fun _ _ h => nomatch h
  have hall : u.breakpoints.AllEnabled := (allEnabled_kept env).runDebugger commands s hstart
  exact disableAbsent_iff (hall.absent hoff)

end Disable

section Examples

-- Zeros at 0x3000, and nothing set there.
theorem disable_on_zeros :
    let u := runDebugger nopEnv [] (atPrompt (fun _ => 0) 0x2000)
    let t := (handleBreakpointAt nopEnv .DISABLE_BREAKPOINT 0x3000 u).2
    t.debugee.mem = u.debugee.mem ∧ t.breakpoints = u.breakpoints :=
  (disable_changes_nothing_iff (atPrompt (fun _ => 0) 0x2000) rfl [] 0x3000
    (Table.not_enabledAt_empty _)).mpr (.inr (by decide +kernel))

-- A breakpoint set and disabled again: the second `break disable` writes zeros over the
-- eight bytes of the program.
theorem disable_writes_zeros :
    let u := runDebugger nopEnv [.enable 0x3000, .disable 0x3000] (atPrompt (fun _ => 0x90) 0x2000)
    let t := (handleBreakpointAt nopEnv .DISABLE_BREAKPOINT 0x3000 u).2
    ¬u.breakpoints.enabledAt 0x3000 ∧ t.debugee.mem ≠ u.debugee.mem := by
  intro u t
  have hoff : (u.breakpoints.lookup 0x3000).enabled = false := by
    decide +kernel
  have hbefore : u.debugee.mem 0x3000 = 0x90 := by
    decide +kernel
  have hafter : t.debugee.mem 0x3000 = 0 := by
    decide +kernel
  refine ⟨fun h => ?_, fun h => ?_⟩
  · rw [(Table.lookup_enabled_iff _ _).mpr h] at hoff
    cases hoff
  · rw [h, hbefore] at hafter
    cases hafter

end Examples

end VDebugger
