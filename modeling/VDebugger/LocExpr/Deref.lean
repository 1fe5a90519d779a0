import VDebugger.LocExpr.Passes

namespace VDebugger

open Machine Reference

variable {env : ExprEnv} {s : LocExpr} {rest : Stack} {loc : LocOp}

-- The number in the first so many bytes of a word, the least significant byte first.
def firstBytes (size : Nat) (data : UWORD) : UWORD :=
  BitVec.ofNat 64 (data.toNat % 2 ^ (8 * size))

theorem firstBytes_eight (data : UWORD) : firstBytes 8 data = data := by
  have hlt : data.toNat < 2 ^ (8 * 8) := data.isLt
  unfold firstBytes
  rw [Nat.mod_eq_of_lt hlt, BitVec.ofNat_toNat, BitVec.setWidth_eq]

-- What `DW_OP_deref_size` is to do on a stack with the address on top. With eight bytes it
-- is `DW_OP_deref`.
structure DerefsSized (env : ExprEnv) (loc : LocOp) (s : LocExpr) (address : UWORD)
    (rest : Stack) : Prop where
  sized : 1 ≤ loc.opd1.toNat → loc.opd1.toNat ≤ 8 → ∀ data,
    env.peek address = some data → Leaves env loc s (firstBytes loc.opd1.toNat data :: rest)
  whole : loc.opd1.toNat = 8 → ∀ data, env.peek address = some data →
    ∀ stack, Leaves env loc s stack ↔ Leaves env { loc with op := .DW_OP_deref } s stack
  fails : 8 < loc.opd1.toNat → ∃ code t, parseOpcode env loc s = (.error code, t)

-- The plain operation gives what the sized one is to give for eight bytes.
theorem deref_leaves {address data : UWORD} (hop : loc.op = .DW_OP_deref)
    (h : Holds s.locInfo s (address :: rest)) (hread : env.peek address = some data) :
    Leaves env loc s (firstBytes 8 data :: rest) := by
  rw [firstBytes_eight]
  have hsize := h.size
  have hderef := parseOpDeref_agrees env h
  simp only [hread, Option.map_some, Option.bind_some] at hderef
  rw [limit_of_le (by simpa using hsize)] at hderef
  obtain ⟨t, ht, hholds⟩ := hderef
  exact .of_nextOp (by simp only [parseOpcode, hop]) ht hholds

-- The label of the operation stands in front of those of the constants.
theorem parseOpcode_derefSize (env : ExprEnv) (hop : loc.op = .DW_OP_deref_size) :
    parseOpcode env loc = nextOp (pushExprTkn loc.opd1) := by
  simp only [parseOpcode, hop]

-- The size is pushed on top of the address.
theorem derefs_sized_iff (env : ExprEnv) (loc : LocOp) (hop : loc.op = .DW_OP_deref_size)
    (s : LocExpr) (address : UWORD) (rest : Stack) (h : Holds s.locInfo s (address :: rest))
    (hone : 1 ≤ loc.opd1.toNat) :
    DerefsSized env loc s address rest ↔
      8 < loc.opd1.toNat ∧ rest.length = 255 ∨ loc.opd1.toNat ≤ 8 ∧ env.peek address = none := by
  have hsize := h.size
  rw [List.length_cons] at hsize
  have hconst := parseOpcode_derefSize env hop
  constructor
  · intro hderef
    by_cases hlarge : 8 < loc.opd1.toNat
    · refine Or.inl ⟨hlarge, ?_⟩
      by_contra hroom
      obtain ⟨code, t, hfail⟩ := hderef.fails hlarge
      have hpush := push_leaves hconst rfl h (by rw [List.length_cons]; omega)
      exact not_leaves_of_error hfail _ hpush
    · refine Or.inr ⟨by omega, ?_⟩
      cases hread : env.peek address with
      | none => rfl
      | some data =>
          have hsized := hderef.sized hone (by omega) data hread
          exfalso
          by_cases hroom : rest.length = 255
          · obtain ⟨code, t, hfail⟩ := push_overflows hconst rfl h (by rw [List.length_cons]; omega)
            exact not_leaves_of_error hfail _ hsized
          · have hpush := push_leaves hconst rfl h (by rw [List.length_cons]; omega)
            have hlength := congrArg List.length ((hpush.iff_eq _).mp hsized)
            simp at hlength
  · rintro (⟨hlarge, hfull⟩ | ⟨hsmall, hread⟩)
    · refine ⟨fun _ hsmall => by omega, fun hwhole => by omega, fun _ => ?_⟩
      exact push_overflows hconst rfl h (by rw [List.length_cons]; omega)
    · refine ⟨fun _ _ data hdata => ?_, fun _ data hdata => ?_, fun hlarge => by omega⟩
      · rw [hread] at hdata
        cases hdata
      · rw [hread] at hdata
        cases hdata

-- Two bytes at 0x7000.
theorem deref_size_two :
    Holds {} (holding {} 0x7000 1) [0x7000] ∧
      ¬DerefsSized ⟨fun _ => some 0x1122334455667788, fun _ => 0⟩ ⟨.DW_OP_deref_size, 2, 0, 0, 0⟩
        (holding {} 0x7000 1) 0x7000 [] := by
  have hheld : Holds {} (holding {} 0x7000 1) [0x7000] := holding_holds _ _ (by omega)
  refine ⟨hheld, fun hderef => ?_⟩
  have hsized := hderef.sized (by decide) (by decide) _ rfl
  have hconst : Leaves ⟨fun _ => some 0x1122334455667788, fun _ => 0⟩
      ⟨.DW_OP_deref_size, 2, 0, 0, 0⟩ (holding {} 0x7000 1) [2, 0x7000] :=
    push_leaves (parseOpcode_derefSize _ rfl) rfl hheld (by simp)
  have hlength := congrArg List.length ((hconst.iff_eq _).mp hsized)
  simp at hlength

-- Nine bytes, on a stack that has no room for the size.
theorem deref_size_nine :
    DerefsSized noEnv ⟨.DW_OP_deref_size, 9, 0, 0, 0⟩
      (holding {} 0x7000 256) 0x7000 (List.replicate 255 0x7000) :=
  (derefs_sized_iff _ _ rfl _ _ _ (holding_holds _ _ (Nat.le_refl 256)) (by decide)).mpr
    (Or.inl ⟨by decide, List.length_replicate⟩)

end VDebugger
