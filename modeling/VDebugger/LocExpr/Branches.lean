import VDebugger.LocExpr

namespace VDebugger

open Machine

variable {s t : LocExpr} {loc : LocOp}

def LocOp.IsBranch (loc : LocOp) : Prop := loc.op = .DW_OP_skip ∨ loc.op = .DW_OP_bra

instance (loc : LocOp) : Decidable loc.IsBranch := inferInstanceAs (Decidable (_ ∨ _))

-- The operand of a branch as the signed 16-bit number it is.
def LocOp.displacement (loc : LocOp) : Int := (loc.opd1.setWidth 16).toInt

-- Whether the branch is taken: the word a `bra` pops is on top of the stack.
def LocOp.Taken (loc : LocOp) (s : LocExpr) : Prop :=
  loc.op = .DW_OP_skip ∨ loc.op = .DW_OP_bra ∧ s.opStack (s.stackTop - 1) ≠ 0

theorem displacement_eq_zero_iff : loc.displacement = 0 ↔ loc.opd1.setWidth 16 = 0 := by
  unfold LocOp.displacement
  exact ⟨fun h => BitVec.toInt_inj.mp h, fun h => by rw [h]; rfl⟩

-- What the operations of a list lead the evaluator to for each result of `parse_opcode`.
theorem evalOp_of_next {env : ExprEnv} {skipBytes : BitVec 16}
    (h : parseOpcode env loc s = (.ok (DwExprAction.NEXT_OP.code, skipBytes), t)) :
    evalOp env loc s = (.ok skipBytes, t) := by
  have hpass : ¬(DwExprAction.NEXT_OP.code ≠ DwExprAction.NEXT_OP.code ∧
      (DwExprAction.NEXT_OP.code = DwExprAction.PARSE_PIECE.code ∨
        ¬DwExprAction.NEXT_OP.code < 0)) := fun hne => hne.1 rfl
  unfold evalOp
  rw [Action.bind_of_ok (Action.orFail_eq_ok.mpr h)]
  exact Action.bind_of_ok (Action.failIf_of_not hpass 1 t) _

theorem evalOp_skip (env : ExprEnv) (hop : loc.op = .DW_OP_skip) (s : LocExpr) :
    evalOp env loc s = (.ok (loc.opd1.setWidth 16), s) := by
  apply evalOp_of_next
  simp only [parseOpcode, hop]
  rfl

-- A `bra` on a stack with an entry takes it off, whatever it is.
theorem evalOp_bra (env : ExprEnv) (hop : loc.op = .DW_OP_bra) (hentry : s.stackTop ≠ 0) :
    ∃ t, t.stackTop = s.stackTop - 1 ∧ evalOp env loc s =
      (.ok (if s.opStack (s.stackTop - 1) ≠ 0 then loc.opd1.setWidth 16 else 0), t) := by
  refine ⟨{ (readStack (s.stackTop - 1) s).2 with stackTop := s.stackTop - 1 }, rfl, ?_⟩
  apply evalOp_of_next
  have hpop : popStackTop s = (.ok (s.opStack (s.stackTop - 1)),
      { (readStack (s.stackTop - 1) s).2 with stackTop := s.stackTop - 1 }) := by
    unfold popStackTop
    rw [Action.bind_of_ok (Action.fetch_apply s),
      Action.bind_of_ok (Action.failIf_of_not hentry _ s)]
    rfl
  simp only [parseOpcode, hop]
  unfold parseOpBra
  rw [Action.bind_assoc, Action.bind_of_ok hpop]
  rfl

theorem evalOp_branch (env : ExprEnv) (hbranch : loc.IsBranch)
    (hentry : loc.op = .DW_OP_bra → s.stackTop ≠ 0) :
    ∃ t, (loc.Taken s → evalOp env loc s = (.ok (loc.opd1.setWidth 16), t)) ∧
      (¬loc.Taken s → evalOp env loc s = (.ok 0, t)) := by
  cases hbranch with
  | inl hskip =>
      exact ⟨s, fun _ => evalOp_skip env hskip s, fun hnot => absurd (Or.inl hskip) hnot⟩
  | inr hbra =>
      obtain ⟨t, _, ht⟩ := evalOp_bra env hbra (hentry hbra)
      refine ⟨t, fun htaken => ?_, fun hnot => ?_⟩
      · have hword : s.opStack (s.stackTop - 1) ≠ 0 := by
          cases htaken with
          | inl hskip => exact absurd (hskip.symm.trans hbra) (by decide)
          | inr hbra => exact hbra.2
        rw [ht, if_pos hword]
      · have hword : ¬s.opStack (s.stackTop - 1) ≠ 0 := fun hne => hnot (Or.inr ⟨hbra, hne⟩)
        rw [ht, if_neg hword]

theorem signExtend_toNat (skipBytes : BitVec 16) :
    ((skipBytes.signExtend 64).toNat : Int)
      = if skipBytes.toInt < 0 then 2 ^ 64 + skipBytes.toInt else skipBytes.toInt := by
  have hlow := BitVec.le_toInt skipBytes
  have hhigh := BitVec.toInt_lt (x := skipBytes)
  rw [BitVec.signExtend, BitVec.toNat_ofInt]
  split <;> omega

-- How far `new_offset` is from the end of a branch less one, as an unsigned number.
theorem sub_end_toNat {newOffset offset : UWORD} (hle : newOffset.toNat ≤ offset.toNat)
    (hend : offset.toNat + 3 ≤ 2 ^ 64) :
    (newOffset - (offset + 2)).toNat = 2 ^ 64 - (offset.toNat + 2 - newOffset.toNat) := by
  have htwo : (offset + 2).toNat = offset.toNat + 2 := by
    have hliteral : (2 : UWORD).toNat = 2 := rfl
    rw [BitVec.toNat_add, hliteral, Nat.mod_eq_of_lt (by omega)]
  rw [BitVec.toNat_sub, htwo]
  omega

-- A forward branch: the first comparison is of -2 as an unsigned number.
theorem scanForward_stays (ops : List (DwRes LocOp)) {skipBytes : BitVec 16}
    (hforward : 0 < skipBytes.toInt) (rest i : Nat) (offset : UWORD) (s : LocExpr) :
    scanForward ops offset skipBytes rest i offset s = (.ok i, s) := by
  cases rest with
  | zero => rfl
  | succ rest =>
      have hstop : ¬offset - (offset + 2) < skipBytes.signExtend 64 := by
        have hdiff : (offset - (offset + 2)).toNat = 2 ^ 64 - 2 := by
          have htwo : (2 : UWORD).toNat = 2 := rfl
          rw [BitVec.toNat_sub, BitVec.toNat_add, htwo]
          omega
        have hsmall := BitVec.toInt_lt (x := skipBytes)
        have hskip := signExtend_toNat skipBytes
        rw [if_neg (by omega)] at hskip
        rw [BitVec.lt_def, hdiff]
        omega
      unfold scanForward
      rw [if_neg hstop]
      rfl

-- The operations' bytes follow one another from `offset` on, and a branch takes three.
def LaidOut : Nat → List LocOp → Prop
  | _, [] => True
  | offset, loc :: rest =>
      loc.offsetforbranch.toNat = offset ∧
        ∃ size, 0 < size ∧ (loc.IsBranch → size = 3) ∧ offset + size ≤ 2 ^ 64 ∧
          LaidOut (offset + size) rest

namespace LaidOut

variable {offset : Nat} {ops : List LocOp}

theorem offset_le (h : LaidOut offset ops) {i : Nat} (hloc : ops[i]? = some loc) :
    offset ≤ loc.offsetforbranch.toNat := by
  induction ops generalizing offset i with
  | nil => cases hloc
  | cons first rest ih =>
      obtain ⟨hfirst, size, hsize, _, _, hrest⟩ := h
      cases i with
      | zero =>
          obtain rfl : first = loc := by simpa using hloc
          omega
      | succ i =>
          have hle := ih hrest (i := i) (by simpa using hloc)
          omega

theorem offset_lt (h : LaidOut offset ops) {i j : Nat} (hij : i < j) {later : LocOp}
    (hloc : ops[i]? = some loc) (hlater : ops[j]? = some later) :
    loc.offsetforbranch.toNat < later.offsetforbranch.toNat := by
  induction ops generalizing offset i j with
  | nil => cases hloc
  | cons first rest ih =>
      obtain ⟨hfirst, size, hsize, _, _, hrest⟩ := h
      obtain ⟨j, rfl⟩ : ∃ k, j = k + 1 := ⟨j - 1, by omega⟩
      have hlater : rest[j]? = some later := by simpa using hlater
      cases i with
      | zero =>
          obtain rfl : first = loc := by simpa using hloc
          have hle := offset_le hrest hlater
          omega
      | succ i => exact ih hrest (Nat.lt_of_succ_lt_succ hij) (by simpa using hloc) hlater

theorem offset_le_of_le (h : LaidOut offset ops) {i j : Nat} (hij : i ≤ j) {later : LocOp}
    (hloc : ops[i]? = some loc) (hlater : ops[j]? = some later) :
    loc.offsetforbranch.toNat ≤ later.offsetforbranch.toNat := by
  cases Nat.lt_or_eq_of_le hij with
  | inl hlt => exact Nat.le_of_lt (h.offset_lt hlt hloc hlater)
  | inr heq =>
      subst j
      obtain rfl : loc = later := Option.some_inj.mp (hloc.symm.trans hlater)
      exact Nat.le_refl _

theorem branch_end_le (h : LaidOut offset ops) {i : Nat} (hloc : ops[i]? = some loc)
    (hbranch : loc.IsBranch) : loc.offsetforbranch.toNat + 3 ≤ 2 ^ 64 := by
  induction ops generalizing offset i with
  | nil => cases hloc
  | cons first rest ih =>
      obtain ⟨hfirst, size, hsize, hthree, hle, hrest⟩ := h
      cases i with
      | zero =>
          obtain rfl : first = loc := by simpa using hloc
          have hsize := hthree hbranch
          omega
      | succ i => exact ih hrest (i := i) (by simpa using hloc)

theorem branch_end_le_later (h : LaidOut offset ops) {i j : Nat} (hij : i < j) {later : LocOp}
    (hloc : ops[i]? = some loc) (hlater : ops[j]? = some later) (hbranch : loc.IsBranch) :
    loc.offsetforbranch.toNat + 3 ≤ later.offsetforbranch.toNat := by
  induction ops generalizing offset i j with
  | nil => cases hloc
  | cons first rest ih =>
      obtain ⟨hfirst, size, hsize, hthree, hle, hrest⟩ := h
      obtain ⟨j, rfl⟩ : ∃ k, j = k + 1 := ⟨j - 1, by omega⟩
      have hlater : rest[j]? = some later := by simpa using hlater
      cases i with
      | zero =>
          obtain rfl : first = loc := by simpa using hloc
          have hle := offset_le hrest hlater
          have hsize := hthree hbranch
          omega
      | succ i => exact ih hrest (Nat.lt_of_succ_lt_succ hij) (by simpa using hloc) hlater

end LaidOut

theorem map_ok_getElem? {ops : List LocOp} {i : Nat} (hloc : ops[i]? = some loc) :
    (ops.map DwRes.ok)[i]? = some (.ok loc) := by
  rw [List.getElem?_map, hloc, Option.map_some]

-- A backward scan goes on down to the operation before the one the branch is to.
theorem scanBackward_before {offset : Nat} {ops : List LocOp} (hlaid : LaidOut offset ops)
    {i k : Nat} {target : LocOp} (hloc : ops[i]? = some loc) (hbranch : loc.IsBranch)
    (hback : loc.displacement < 0) (htarget : ops[k]? = some target)
    (hat : (target.offsetforbranch.toNat : Int)
      = loc.offsetforbranch.toNat + 3 + loc.displacement)
    {j : Nat} {here : LocOp} (hji : j ≤ i) (hhere : ops[j]? = some here) (hkj : k ≤ j)
    (s : LocExpr) :
    scanBackward (ops.map .ok) loc.offsetforbranch (loc.opd1.setWidth 16) j here.offsetforbranch s
      = (.ok (k - 1), s) := by
  have hend := hlaid.branch_end_le hloc hbranch
  unfold LocOp.displacement at hat hback
  have hskip := signExtend_toNat (loc.opd1.setWidth 16)
  rw [if_pos hback] at hskip
  have hlow := BitVec.le_toInt (loc.opd1.setWidth 16)
  -- The scan goes on just where the operation does not start before the target.
  have hgoesOn {m : Nat} {op : LocOp} (hm : m ≤ i) (hop : ops[m]? = some op) :
      (op.offsetforbranch - (loc.offsetforbranch + 2) > (loc.opd1.setWidth 16).signExtend 64) ↔
        target.offsetforbranch.toNat ≤ op.offsetforbranch.toNat := by
    have hle := hlaid.offset_le_of_le hm hop hloc
    rw [gt_iff_lt, BitVec.lt_def, sub_end_toNat hle hend]
    omega
  induction j generalizing here with
  | zero =>
      obtain rfl : k = 0 := Nat.le_zero.mp hkj
      rfl
  | succ j ih =>
      have hon := (hgoesOn hji hhere).mpr (hlaid.offset_le_of_le hkj htarget hhere)
      obtain ⟨prev, hprev⟩ : ∃ op, ops[j]? = some op := by
        have hlen := List.getElem?_eq_some_iff.mp hhere
        obtain ⟨hlt, _⟩ := hlen
        exact ⟨ops[j], List.getElem?_eq_getElem (by omega)⟩
      unfold scanBackward
      rw [if_pos hon, Action.bind_of_ok (getLocationOp_ok (map_ok_getElem? hprev) s)]
      cases Nat.lt_or_eq_of_le hkj with
      | inl hlt => exact ih (by omega) hprev (by omega)
      | inr heq =>
          subst k
          have hbefore := hlaid.offset_lt (Nat.lt_succ_self j) hprev htarget
          have hoff : ¬prev.offsetforbranch - (loc.offsetforbranch + 2)
              > (loc.opd1.setWidth 16).signExtend 64 := fun hgt =>
            absurd ((hgoesOn (by omega) hprev).mp hgt) (by omega)
          cases j with
          | zero => rfl
          | succ j =>
              unfold scanBackward
              rw [if_neg hoff]
              rfl

-- Where the branch is to lead: the operation at its target, or the next one.
def LocOp.LeadsTo (ops : List LocOp) (i : Nat) (loc : LocOp) (s : LocExpr) (k : Nat) : Prop :=
  (loc.Taken s ∧ loc.displacement ≠ 0 ∧ ∃ target, ops[k]? = some target ∧
      (target.offsetforbranch.toNat : Int)
        = loc.offsetforbranch.toNat + 3 + loc.displacement) ∨
    ((¬loc.Taken s ∨ loc.displacement = 0) ∧ k = i + 1)

theorem evalPass_zero {env : ExprEnv} {ops : List (DwRes LocOp)} {i : Nat}
    (hloc : ops[i]? = some (.ok loc)) (hop : evalOp env loc s = (.ok 0, t)) :
    evalPass env ops i s = (.ok (i + 1), t) := by
  unfold evalPass
  rw [Action.bind_of_ok (getLocationOp_ok hloc s), Action.bind_of_ok hop]
  rfl

theorem evalPass_forward {env : ExprEnv} {ops : List (DwRes LocOp)} {i : Nat}
    (hloc : ops[i]? = some (.ok loc)) (hforward : 0 < loc.displacement)
    (hop : evalOp env loc s = (.ok (loc.opd1.setWidth 16), t)) :
    evalPass env ops i s = (.ok i, t) := by
  have hne : ¬loc.opd1.setWidth 16 = 0 := fun hzero => by
    rw [← displacement_eq_zero_iff] at hzero
    omega
  have hpos : (loc.opd1.setWidth 16).toInt > 0 := hforward
  unfold evalPass
  rw [Action.bind_of_ok (getLocationOp_ok hloc s), Action.bind_of_ok hop, if_neg hne, if_pos hpos]
  exact scanForward_stays _ hpos _ i _ t

theorem evalPass_backward {env : ExprEnv} {ops : List LocOp} (hlaid : LaidOut 0 ops) {i k : Nat}
    (hloc : ops[i]? = some loc) (hbranch : loc.IsBranch) (hback : loc.displacement < 0)
    {target : LocOp} (htarget : ops[k]? = some target)
    (hat : (target.offsetforbranch.toNat : Int)
      = loc.offsetforbranch.toNat + 3 + loc.displacement)
    (hop : evalOp env loc s = (.ok (loc.opd1.setWidth 16), t)) :
    evalPass env (ops.map .ok) i s = (.ok (k - 1), t) := by
  have hne : ¬loc.opd1.setWidth 16 = 0 := fun hzero => by
    rw [← displacement_eq_zero_iff] at hzero
    omega
  have hkpos : ¬(loc.opd1.setWidth 16).toInt > 0 := by
    unfold LocOp.displacement at hback
    omega
  have hki : k ≤ i := by
    by_contra hlt
    have hafter := hlaid.branch_end_le_later (Nat.lt_of_not_le hlt) hloc htarget hbranch
    omega
  unfold evalPass
  rw [Action.bind_of_ok (getLocationOp_ok (map_ok_getElem? hloc) s), Action.bind_of_ok hop, if_neg hne,
    if_neg hkpos]
  exact scanBackward_before hlaid hloc hbranch hback htarget hat (Nat.le_refl i) hloc hki t

-- A forward branch is executed again, a backward one leads to the operation before its
-- target: only at the first operation is there none before.
theorem branch_lands_iff (env : ExprEnv) {ops : List LocOp} (hlaid : LaidOut 0 ops) {i k : Nat}
    (hloc : ops[i]? = some loc) (hbranch : loc.IsBranch)
    (hentry : loc.op = .DW_OP_bra → s.stackTop ≠ 0) (hleads : loc.LeadsTo ops i s k) :
    (evalPass env (ops.map .ok) i s).1 = .ok k ↔
      ¬loc.Taken s ∨ loc.displacement = 0 ∨ loc.displacement < 0 ∧ k = 0 := by
  obtain ⟨t, htaken, huntaken⟩ := evalOp_branch env hbranch hentry
  cases hleads with
  | inr hnext =>
      obtain ⟨hstay, rfl⟩ := hnext
      have hop : evalOp env loc s = (.ok 0, t) := by
        by_cases htake : loc.Taken s
        · have hzero := displacement_eq_zero_iff.mp (hstay.resolve_left (not_not_intro htake))
          rw [htaken htake, hzero]
        · exact huntaken htake
      have hpass := evalPass_zero (map_ok_getElem? hloc) hop
      constructor
      · intro _
        cases hstay with
        | inl hnot => exact Or.inl hnot
        | inr hzero => exact Or.inr (Or.inl hzero)
      · intro _
        rw [hpass]
  | inl hfar =>
      obtain ⟨htake, hne, target, htarget, hat⟩ := hfar
      by_cases hforward : 0 < loc.displacement
      · have hpass := evalPass_forward (map_ok_getElem? hloc) hforward (htaken htake)
        have hdifferent : i ≠ k := by
          intro heq
          subst k
          obtain rfl : loc = target := Option.some_inj.mp (hloc.symm.trans htarget)
          omega
        constructor
        · intro hlands
          rw [hpass] at hlands
          exact absurd (Outcome.ok.inj hlands) hdifferent
        · rintro (hnot | hzero | ⟨hback, _⟩)
          · exact absurd htake hnot
          · exact absurd hzero hne
          · omega
      · have hback : loc.displacement < 0 := by omega
        have hpass := evalPass_backward hlaid hloc hbranch hback htarget hat (htaken htake)
        constructor
        · intro hlands
          rw [hpass] at hlands
          have hk : k - 1 = k := Outcome.ok.inj hlands
          exact Or.inr (Or.inr ⟨hback, by omega⟩)
        · rintro (hnot | hzero | ⟨_, hfirst⟩)
          · exact absurd htake hnot
          · exact absurd hzero hne
          · rw [hpass, hfirst]

-- Two operations of one byte and a branch back over so many bytes.
def loopBack (displacement : UWORD) : List LocOp :=
  [⟨.DW_OP_lit 1, 0, 0, 0, 0⟩, ⟨.DW_OP_lit 2, 0, 0, 0, 1⟩, ⟨.DW_OP_skip, displacement, 0, 0, 2⟩]

theorem loopBack_laidOut (displacement : UWORD) : LaidOut 0 (loopBack displacement) :=
  ⟨rfl, 1, by decide, by decide, by decide, rfl, 1, by decide, by decide, by decide,
    rfl, 3, by decide, fun _ => rfl, by decide, trivial⟩

theorem skip_to_first :
    (evalPass ⟨fun _ => none, fun _ => 0⟩ ((loopBack (-5)).map .ok) 2
      (LocInfo.freshExpr {})).1 = .ok 0 :=
  (branch_lands_iff _ (loopBack_laidOut (-5)) rfl (Or.inl rfl) (by decide)
    (Or.inl ⟨Or.inl rfl, by decide, ⟨.DW_OP_lit 1, 0, 0, 0, 0⟩, rfl, by decide⟩)).mpr
    (Or.inr (Or.inr ⟨by decide, rfl⟩))

-- A branch to the second operation leads to the first one.
theorem skip_misses_second :
    LocOp.LeadsTo (loopBack (-4)) 2 ⟨.DW_OP_skip, -4, 0, 0, 2⟩ (LocInfo.freshExpr {}) 1 ∧
      (evalPass ⟨fun _ => none, fun _ => 0⟩ ((loopBack (-4)).map .ok) 2
        (LocInfo.freshExpr {})).1 = .ok 0 :=
  ⟨Or.inl ⟨Or.inl rfl, by decide, ⟨.DW_OP_lit 2, 0, 0, 0, 1⟩, rfl, by decide⟩, by decide⟩

end VDebugger
