import VDebugger.LocExpr.Passes

namespace VDebugger

open Machine Reference

variable {env : ExprEnv} {s : LocExpr} {stack : Stack} {loc : LocOp}

-- The operation divides the second entry by the top, and the division has no result.
def TrapsOn : DwOp → Stack → Prop
  | .DW_OP_div, b :: c :: _ => b = 0 ∨ c = BitVec.intMin 64 ∧ b = -1
  | .DW_OP_mod, b :: _ :: _ => b = 0
  | _, _ => False

theorem not_trapsOn {op : DwOp} (hdiv : op ≠ .DW_OP_div) (hmod : op ≠ .DW_OP_mod)
    (stack : Stack) : ¬TrapsOn op stack := by
  unfold TrapsOn
  split
  · exact absurd rfl hdiv
  · exact absurd rfl hmod
  · exact id

theorem pushExprTkn_returns (tkn : UWORD) : (pushExprTkn tkn).Returns :=
  .bind .fetch fun _ => .bind (.failIf _ _) fun _ =>
    .bind (x := writeStack _ _) (fun _ h => nomatch h) fun _ => .change _

theorem returns_stackClosed : StackClosed fun α x => Action.Returns (α := α) x where
  pure := .pure
  bind := .bind
  fail := .fail
  failIf c _ code := .failIf c code
  fetch := .fetch
  orFail := .orFail
  attempt := .attempt
  push := pushExprTkn_returns
  pop := .bind .fetch fun _ => .bind (.failIf _ _) fun _ =>
    .bind (x := readStack _) (fun _ h => nomatch h) fun _ => .bind (.change _) fun _ => .pure _
  pick _ := .bind .fetch fun _ => .bind (.failIf _ _) fun _ =>
    .bind (x := readStack _) (fun _ h => nomatch h) fun _ => pushExprTkn_returns _

-- Two entries are taken off, and the division is made if there are two.
theorem popTwo_pending_iff {f : UWORD → UWORD → ExprM Unit} {traps : UWORD → UWORD → Prop}
    {locInfo : LocInfo} (h : Holds locInfo s stack)
    (hf : ∀ b c t, (f b c t).1 = .pending ↔ traps b c) :
    ((popStackTop >>= fun b => popStackTop >>= f b) s).1 = .pending ↔
      ∃ b c rest, stack = b :: c :: rest ∧ traps b c := by
  match stack with
  | [] =>
      rw [Action.bind_of_error (pop_nil h)]
      simp
  | [b] =>
      obtain ⟨t, hb, ht⟩ := pop_cons h
      rw [Action.bind_of_ok hb, Action.bind_of_error (pop_nil ht)]
      simp
  | b :: c :: rest =>
      obtain ⟨t, hb, ht⟩ := pop_cons h
      obtain ⟨u, hc, _⟩ := pop_cons ht
      rw [Action.bind_of_ok hb, Action.bind_of_ok hc, hf]
      simp

theorem nextOp_pending_iff (x : ExprM Unit) : (nextOp x s).1 = .pending ↔ (x s).1 = .pending :=
  Action.Returns.bind_pending_iff (fun _ => .pure _) s

theorem parseOpDiv_pending_iff {locInfo : LocInfo} (h : Holds locInfo s stack) :
    (parseOpDiv s).1 = .pending ↔ TrapsOn .DW_OP_div stack := by
  have hdivide (b c : UWORD) (t : LocExpr) :
      ((if b = 0 ∨ c = BitVec.intMin 64 ∧ b = -1 then Action.block
        else pushExprTkn (c.sdiv b) : ExprM Unit) t).1 = .pending ↔
          (b = 0 ∨ c = BitVec.intMin 64 ∧ b = -1) := by
    split
    · next htraps => exact iff_of_true rfl htraps
    · next htraps => exact iff_of_false (pushExprTkn_returns _ t) htraps
  refine (popTwo_pending_iff h hdivide).trans ?_
  match stack with
  | [] => simp [TrapsOn]
  | [b] => simp [TrapsOn]
  | b :: c :: rest => simp [TrapsOn]

theorem parseOpMod_pending_iff {locInfo : LocInfo} (h : Holds locInfo s stack) :
    (parseOpMod s).1 = .pending ↔ TrapsOn .DW_OP_mod stack := by
  have hdivide (b c : UWORD) (t : LocExpr) :
      ((if b = 0 then Action.block else pushIgnored (c % b) : ExprM Unit) t).1 = .pending ↔
        b = 0 := by
    split
    · next htraps => exact iff_of_true rfl htraps
    · next htraps => exact iff_of_false (pushIgnored_closed returns_stackClosed _ t) htraps
  refine (popTwo_pending_iff h hdivide).trans ?_
  match stack with
  | [] => simp [TrapsOn]
  | [b] => simp [TrapsOn]
  | b :: c :: rest => simp [TrapsOn]

-- No other operation ends the debugger, and these two do for such operands alone.
theorem parseOpcode_pending_iff (env : ExprEnv) {locInfo : LocInfo} (h : Holds locInfo s stack) :
    (parseOpcode env loc s).1 = .pending ↔ TrapsOn loc.op stack := by
  by_cases hdiv : loc.op = .DW_OP_div
  · have hop : parseOpcode env loc = nextOp parseOpDiv := by simp only [parseOpcode, hdiv]
    rw [hop, nextOp_pending_iff, hdiv]
    exact parseOpDiv_pending_iff h
  · by_cases hmod : loc.op = .DW_OP_mod
    · have hop : parseOpcode env loc = nextOp parseOpMod := by simp only [parseOpcode, hmod]
      rw [hop, nextOp_pending_iff, hmod]
      exact parseOpMod_pending_iff h
    · have hreturns := parseOpcode_closed returns_stackClosed env loc
        (fun hop => absurd hop hdiv) (fun hop => absurd hop hmod) s
      exact iff_of_false hreturns (not_trapsOn hdiv hmod stack)

theorem evalPass_pending_iff (env : ExprEnv) {ops : List (DwRes LocOp)} {i : Nat}
    (hget : ops[i]? = some (.ok loc)) {locInfo : LocInfo} (h : Holds locInfo s stack) :
    (evalPass env ops i s).1 = .pending ↔ TrapsOn loc.op stack := by
  have hafter := evalPass_after_closed returns_stackClosed ops i loc
  unfold evalPass
  rw [Action.bind_of_ok (getLocationOp_ok hget s), Action.Returns.bind_pending_iff hafter]
  unfold evalOp
  rw [Action.Returns.bind_pending_iff fun _ => .bind (.failIf _ _) fun _ => .pure _,
    Action.orFail_pending_iff]
  exact parseOpcode_pending_iff env h

-- The evaluation from an operation on divides where there is a result, and fails where
-- there is none.
structure Guarded (env : ExprEnv) (locInfo : LocInfo) (ops : List (DwRes LocOp))
    (index : Nat) : Prop where
  returns : ∀ passes i t, Reaches env ops index locInfo.startExpr passes i t → i < ops.length →
    (evalPass env ops i t).1 ≠ .pending
  fails : ∀ passes i t loc stack, Reaches env ops index locInfo.startExpr passes i t →
    ops[i]? = some (.ok loc) → Holds locInfo t stack → TrapsOn loc.op stack →
      ∃ code, (evalPass env ops i t).1 = .error code

theorem guarded_of_never {locInfo : LocInfo} {ops : List (DwRes LocOp)} {index : Nat}
    (hnever : ∀ passes i t loc stack, Reaches env ops index locInfo.startExpr passes i t →
      ops[i]? = some (.ok loc) → Holds locInfo t stack → ¬TrapsOn loc.op stack) :
    Guarded env locInfo ops index where
  returns passes i t hreach hmore := by
    obtain ⟨stack, hstack⟩ := hreach.holds
    cases hget : ops[i]? with
    | none =>
        have hlength := List.getElem?_eq_none_iff.mp hget
        omega
    | some op =>
        cases op with
        | ok loc =>
            rw [Ne, evalPass_pending_iff env hget hstack]
            exact hnever passes i t loc stack hreach hget hstack
        | noEntry =>
            simp only [evalPass, getLocationOp, hget]
            intro h
            cases h
        | error =>
            simp only [evalPass, getLocationOp, hget]
            intro h
            cases h
  fails passes i t loc stack hreach hget hstack htraps :=
    absurd htraps (hnever passes i t loc stack hreach hget hstack)

-- An expression without these two operations is safe.
theorem guarded_of_no_division (env : ExprEnv) (locInfo : LocInfo) {ops : List (DwRes LocOp)}
    (index : Nat)
    (hops : ∀ loc, DwRes.ok loc ∈ ops → loc.op ≠ .DW_OP_div ∧ loc.op ≠ .DW_OP_mod) :
    Guarded env locInfo ops index := by
  apply guarded_of_never
  intro passes i t loc stack _ hget _
  obtain ⟨hdiv, hmod⟩ := hops loc (List.mem_of_getElem? hget)
  exact not_trapsOn hdiv hmod stack

-- No operand of a division is looked at before it is made.
theorem guarded_iff (env : ExprEnv) (locInfo : LocInfo) (ops : List (DwRes LocOp)) (index : Nat) :
    Guarded env locInfo ops index ↔
      ∀ passes i t loc stack, Reaches env ops index locInfo.startExpr passes i t →
        ops[i]? = some (.ok loc) → Holds locInfo t stack → ¬TrapsOn loc.op stack := by
  constructor
  · intro hguarded passes i t loc stack hreach hget hstack htraps
    have hmore : i < ops.length := (List.getElem?_eq_some_iff.mp hget).1
    exact hguarded.returns passes i t hreach hmore
      ((evalPass_pending_iff env hget hstack).mpr htraps)
  · exact guarded_of_never

-- One divided by nothing.
def divideByZero : List (DwRes LocOp) :=
  [.ok ⟨.DW_OP_lit 1, 0, 0, 0, 0⟩, .ok ⟨.DW_OP_lit 0, 0, 0, 0, 1⟩, .ok ⟨.DW_OP_div, 0, 0, 0, 2⟩]

theorem divideByZero_traps : ¬Guarded noEnv {} divideByZero 0 := by
  intro hguarded
  have hstart : Reaches noEnv divideByZero 0 (LocInfo.startExpr {}) 0 0 _ := .start
  have hreach := Reaches.pass (hstart.pass (by decide) rfl) (by decide) rfl
  exact hguarded.returns 2 2 _ hreach (by decide) rfl

end VDebugger
