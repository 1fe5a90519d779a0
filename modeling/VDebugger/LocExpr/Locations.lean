import VDebugger.LocExpr.Passes

namespace VDebugger

open Machine

variable {env : ExprEnv} {locInfo : LocInfo} {pc : UWORD} {descs : List LocDesc}

-- The range of an entry is half open.
def LocDesc.Covers (desc : LocDesc) (pc : UWORD) : Prop := desc.lopc ≤ pc ∧ pc < desc.hipc

instance LocDesc.decidableCovers (desc : LocDesc) (pc : UWORD) : Decidable (desc.Covers pc) :=
  inferInstanceAs (Decidable (_ ∧ _))

def coveringEntry (descs : List LocDesc) (pc : UWORD) : Option LocDesc :=
  descs.find? fun desc => desc.Covers pc

-- The entry that the loop ends at: the first whose range, with its end, has the pc in it,
-- else the last one.
def enteredOps (pc : UWORD) (last : List (DwRes LocOp)) (descs : List LocDesc) :
    List (DwRes LocOp) :=
  match descs.find? fun desc => desc.lopc ≤ pc ∧ pc ≤ desc.hipc with
  | some desc => desc.ops
  | none => (descs.getLast?.map LocDesc.ops).getD last

-- The pc relative to the load address.
def LocInfo.pcOffset (locInfo : LocInfo) : UWORD :=
  locInfo.calleeRegsCurValue.rip - locInfo.loadAddress

theorem searchLocDesc_eq (pc : UWORD) (descs : List LocDesc) (last : List (DwRes LocOp))
    (s : LocExpr) :
    searchLocDesc pc (descs.map .ok) last s = (.ok (enteredOps pc last descs), s) := by
  induction descs generalizing last with
  | nil => rfl
  | cons desc rest ih =>
      unfold enteredOps
      rw [List.map_cons, searchLocDesc]
      by_cases hin : desc.lopc ≤ pc ∧ desc.hipc ≥ pc
      · rw [if_pos hin, List.find?_cons_of_pos (by simpa using hin)]
        rfl
      · rw [if_neg hin, List.find?_cons_of_neg (by simpa using hin), ih]
        unfold enteredOps
        cases rest.find? fun desc => desc.lopc ≤ pc ∧ pc ≤ desc.hipc with
        | some found => rfl
        | none => cases hlast : rest.getLast? <;> simp [List.getLast?_cons, hlast]

theorem pushInitial_fresh (locInfo : LocInfo) :
    pushInitial locInfo locInfo.freshExpr = (.ok (), locInfo.startExpr) := by
  unfold LocInfo.startExpr pushInitial
  split
  · rfl
  · rfl

-- What `get_var_location` evaluates.
theorem getVarLocation_of_search {fuel : Nat} {entries : List (DwRes LocDesc)}
    {ops : List (DwRes LocOp)}
    (h : searchLocDesc locInfo.pcOffset entries [] locInfo.startExpr = (.ok ops, locInfo.startExpr)) :
    getVarLocation env fuel (.ok entries) locInfo.freshExpr =
      (evaluateExpr env fuel ops 0).orFail 1 locInfo.startExpr := by
  unfold getVarLocation
  rw [Action.bind_of_ok (Action.fetch_apply _)]
  refine (Action.bind_of_ok (pushInitial_fresh locInfo) _).trans ?_
  exact Action.bind_of_ok h _

theorem getVarLocation_eq (env : ExprEnv) (fuel : Nat) (locInfo : LocInfo)
    (descs : List LocDesc) :
    getVarLocation env fuel (.ok (descs.map .ok)) locInfo.freshExpr =
      (evaluateExpr env fuel (enteredOps locInfo.pcOffset [] descs) 0).orFail 1
        locInfo.startExpr :=
  getVarLocation_of_search (searchLocDesc_eq locInfo.pcOffset descs [] locInfo.startExpr)

theorem getVarLocation_eq_ok {fuel : Nat} {value : UWORD} :
    (getVarLocation env fuel (.ok (descs.map .ok)) locInfo.freshExpr).1 = .ok value ↔
      (evaluateExpr env fuel (enteredOps locInfo.pcOffset [] descs) 0 locInfo.startExpr).1
        = .ok value := by
  rw [getVarLocation_eq]
  unfold Action.orFail
  rcases evaluateExpr env fuel (enteredOps locInfo.pcOffset [] descs) 0 locInfo.startExpr with
    ⟨_ | _ | _, t⟩ <;> simp

theorem getVarLocation_eq_error {fuel : Nat} :
    (∃ code, (getVarLocation env fuel (.ok (descs.map .ok)) locInfo.freshExpr).1 = .error code) ↔
      ∃ code, (evaluateExpr env fuel (enteredOps locInfo.pcOffset [] descs) 0
        locInfo.startExpr).1 = .error code := by
  rw [getVarLocation_eq]
  unfold Action.orFail
  rcases evaluateExpr env fuel (enteredOps locInfo.pcOffset [] descs) 0 locInfo.startExpr with
    ⟨_ | _ | _, t⟩ <;> simp

-- The evaluation comes to this word, or to no word, once enough of its passes are observed.
def Evaluates (env : ExprEnv) (locInfo : LocInfo) (ops : List (DwRes LocOp)) (value : UWORD) :
    Prop := ∃ fuel, (evaluateExpr env fuel ops 0 locInfo.startExpr).1 = .ok value

def FailsToEvaluate (env : ExprEnv) (locInfo : LocInfo) (ops : List (DwRes LocOp)) : Prop :=
  ∃ fuel code, (evaluateExpr env fuel ops 0 locInfo.startExpr).1 = .error code

theorem FailsToEvaluate.not_evaluates {ops : List (DwRes LocOp)}
    (h : FailsToEvaluate env locInfo ops) (value : UWORD) : ¬Evaluates env locInfo ops value := by
  rintro ⟨fuel, hvalue⟩
  obtain ⟨other, code, herror⟩ := h
  have hends : (evaluateExpr env fuel ops 0 locInfo.startExpr).1 ≠ .pending := by
    rw [hvalue]
    exact fun h => nomatch h
  have hends' : (evaluateExpr env other ops 0 locInfo.startExpr).1 ≠ .pending := by
    rw [herror]
    exact fun h => nomatch h
  rw [evaluateExpr_agrees hends hends', herror] at hvalue
  cases hvalue

-- What is evaluated is the expression of the first entry that covers the pc. Where there
-- is none, the call fails: it stores a value only where it succeeds.
structure UsesCovering (env : ExprEnv) (locInfo : LocInfo) (descs : List LocDesc) : Prop where
  used : ∀ fuel value,
    (getVarLocation env fuel (.ok (descs.map .ok)) locInfo.freshExpr).1 = .ok value →
      ∃ desc, coveringEntry descs locInfo.pcOffset = some desc ∧
        ∀ s, searchLocDesc locInfo.pcOffset (descs.map .ok) [] s = (.ok desc.ops, s)
  fails : coveringEntry descs locInfo.pcOffset = none →
    ∃ fuel code,
      (getVarLocation env fuel (.ok (descs.map .ok)) locInfo.freshExpr).1 = .error code

-- An entry that ends at the pc, or the last one where none has it, takes the place of the
-- right one: no harm is done where it has the same expression or its own fails.
theorem uses_covering_iff (env : ExprEnv) (locInfo : LocInfo) (descs : List LocDesc) :
    UsesCovering env locInfo descs ↔
      match coveringEntry descs locInfo.pcOffset with
      | some desc => enteredOps locInfo.pcOffset [] descs = desc.ops ∨
          ∀ value, ¬Evaluates env locInfo (enteredOps locInfo.pcOffset [] descs) value
      | none => FailsToEvaluate env locInfo (enteredOps locInfo.pcOffset [] descs) := by
  constructor
  · intro huses
    cases hcover : coveringEntry descs locInfo.pcOffset with
    | none =>
        obtain ⟨fuel, herror⟩ := huses.fails hcover
        exact ⟨fuel, getVarLocation_eq_error.mp herror⟩
    | some desc =>
        by_cases hvalue : ∃ value,
            Evaluates env locInfo (enteredOps locInfo.pcOffset [] descs) value
        · obtain ⟨value, fuel, hvalue⟩ := hvalue
          obtain ⟨found, hfound, hsearch⟩ := huses.used fuel value
            (getVarLocation_eq_ok.mpr hvalue)
          obtain rfl : desc = found := Option.some.inj (hcover.symm.trans hfound)
          have hops := (searchLocDesc_eq locInfo.pcOffset descs [] locInfo.startExpr).symm.trans
            (hsearch locInfo.startExpr)
          exact Or.inl (Outcome.ok.inj (congrArg Prod.fst hops))
        · exact Or.inr (not_exists.mp hvalue)
  · intro hharmless
    refine ⟨fun fuel value hvalue => ?_, fun hnone => ?_⟩
    · have hvalue := getVarLocation_eq_ok.mp hvalue
      cases hcover : coveringEntry descs locInfo.pcOffset with
      | none =>
          rw [hcover] at hharmless
          exact absurd ⟨fuel, hvalue⟩ (FailsToEvaluate.not_evaluates hharmless value)
      | some desc =>
          rw [hcover] at hharmless
          cases hharmless with
          | inl hops => exact ⟨desc, rfl, fun s => by rw [searchLocDesc_eq, hops]⟩
          | inr hnever => exact absurd ⟨fuel, hvalue⟩ (hnever value)
    · rw [hnone] at hharmless
      obtain ⟨fuel, herror⟩ := hharmless
      exact ⟨fuel, getVarLocation_eq_error.mpr herror⟩

-- Two ranges that meet at 0x10.
def twoRanges : List LocDesc :=
  [⟨0, 0x10, [.ok ⟨.DW_OP_lit 1, 0, 0, 0, 0⟩]⟩, ⟨0x10, 0x20, [.ok ⟨.DW_OP_lit 2, 0, 0, 0, 0⟩]⟩]

theorem stale_range_used :
    let locInfo : LocInfo := { calleeRegsCurValue := { rip := 0x10 } }
    coveringEntry twoRanges locInfo.pcOffset
        = some ⟨0x10, 0x20, [.ok ⟨.DW_OP_lit 2, 0, 0, 0, 0⟩]⟩ ∧
      (getVarLocation noEnv 1 (.ok (twoRanges.map .ok)) locInfo.freshExpr).1 = .ok 1 ∧
      ¬UsesCovering noEnv locInfo twoRanges := by
  refine ⟨rfl, rfl, fun huses => ?_⟩
  obtain ⟨desc, hcover, hsearch⟩ := huses.used 1 1 rfl
  cases hcover
  have hops := congrArg Prod.fst (hsearch (LocInfo.startExpr {}))
  cases hops

end VDebugger
