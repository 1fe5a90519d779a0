import VDebugger.Command.Kept

namespace VDebugger

open Machine

namespace Trap

-- A stop that `handle_sigtrap` takes for a breakpoint.
def IsBreakpoint (trap : Trap) : Prop :=
  trap.siCode = .SI_KERNEL ∨ trap.siCode = .TRAP_BRKPT

-- The pc goes back over an int3 of the debugger's own and stays where it is
-- otherwise.
def Rewound (trap : Trap) : Prop :=
  trap.IsBreakpoint → trap.after = if trap.own then trap.pc - 1 else trap.pc

-- What the handler does: it asks nothing but the kernel.
def Handled (trap : Trap) : Prop :=
  trap.IsBreakpoint → trap.after = if trap.granted then trap.pc - 1 else trap.pc

theorem sub_one_ne (a : UWORD) : ¬a - 1#64 = a := by
  bv_omega

theorem Handled.right_iff {trap : Trap} (h : trap.Handled) :
    trap.Rewound ↔ (trap.IsBreakpoint → trap.own = trap.granted) := by
  unfold Rewound
  refine forall_congr' fun hcode => ?_
  rw [h hcode]
  have hne := sub_one_ne trap.pc
  have hne' : ¬trap.pc = trap.pc - 1#64 := fun h => hne h.symm
  cases trap.own <;> cases trap.granted <;> simp [hne, hne']

end Trap

section Rewind

variable {κ : Type} {env : Env κ}

-- The calls of `handle_sigtrap` between two states have all gone the handler's way.
def TrapsHandled (s t : Debugger κ) : Prop :=
  ∃ new, t.traps = new ++ s.traps ∧ ∀ trap ∈ new, trap.Handled

theorem recordTrap_handled (siCode : SiCode) :
    (recordTrap env siCode (handleSigtrap env siCode)).Keeps TrapsHandled := by
  intro s
  by_cases hcode : siCode = .SI_KERNEL ∨ siCode = .TRAP_BRKPT
  · obtain ⟨log, hstate⟩ := handleSigtrap_breakpoint env s hcode
    simp only [TrapsHandled, recordTrap, hstate]
    refine ⟨[_], rfl, fun trap hmem _ => ?_⟩
    rw [List.mem_singleton] at hmem
    subst hmem
    simp only [Debugger.withRegs]
    split <;> rfl
  · simp only [TrapsHandled, recordTrap, handleSigtrap_other env s hcode]
    refine ⟨[_], rfl, fun trap hmem hbreak => ?_⟩
    rw [List.mem_singleton] at hmem
    subst hmem
    exact absurd hbreak hcode

theorem trapsHandled_kept (env : Env κ) : Kept env TrapsHandled where
  refl s := ⟨[], rfl, fun _ h => nomatch h⟩
  trans s t u := by
    rintro ⟨first, hfirst, hf⟩ ⟨second, hsecond, hs⟩
    refine ⟨second ++ first, by rw [hsecond, hfirst, List.append_assoc], fun trap hmem => ?_⟩
    exact (List.mem_append.mp hmem).elim (hs trap) (hf trap)
  note _ _ _ _ := ⟨[], rfl, fun _ h => nomatch h⟩
  withMem _ _ := ⟨[], rfl, fun _ h => nomatch h⟩
  withRegs _ _ := ⟨[], rfl, fun _ h => nomatch h⟩
  resume _ _ := ⟨[], rfl, fun _ h => nomatch h⟩
  settle _ _ _ := ⟨[], rfl, fun _ h => nomatch h⟩
  search _ _ := ⟨[], rfl, fun _ h => nomatch h⟩
  trap := recordTrap_handled
  insert _ _ _ _ := ⟨[], rfl, fun _ h => nomatch h⟩
  save _ _ _ := ⟨[], rfl, fun _ h => nomatch h⟩
  delete _ _ := ⟨[], rfl, fun _ h => nomatch h⟩

-- Throughout every session: the handler is right about the pc at exactly those stops
-- where it stands behind an int3 of the debugger's, unless a request is refused.
theorem rewound_iff (s : Debugger κ) (commands : List Command) :
    let traps := (runDebugger env commands { s with traps := [] }).traps
    ∀ trap ∈ traps, trap.Rewound ↔ (trap.IsBreakpoint → trap.own = trap.granted) := by
  intro traps trap hmem
  obtain ⟨new, hnew, hhandled⟩ :=
    (trapsHandled_kept env).runDebugger commands { s with traps := [] }
  have hin : trap ∈ new := by
    rwa [show traps = new from hnew.trans (List.append_nil new)] at hmem
  exact (hhandled trap hin).right_iff

-- A program of no-ops with an int3 of its own at 0x2003: `continue` with no breakpoint
-- ever set leaves the pc on that int3 again.
theorem rewound_onto_foreign_int3 :
    let mem := fun a => if a = 0x2003 then int3 else 0x90
    ∃ trap ∈ (runDebugger nopEnv [.cont] (atPrompt mem 0x2000)).traps,
      trap.IsBreakpoint ∧ trap.own = false ∧ ¬trap.Rewound := by
  intro mem
  have htraps : (runDebugger nopEnv [.cont] (atPrompt mem 0x2000)).traps =
      [⟨.SI_KERNEL, 0x2004, false, true, 0x2003⟩] := by
    decide +kernel
  rw [htraps]
  refine ⟨_, List.mem_singleton_self _, .inl rfl, rfl, fun h => ?_⟩
  exact absurd (h (.inl rfl)) (by decide)

end Rewind

end VDebugger
