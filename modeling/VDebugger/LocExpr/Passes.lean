import VDebugger.LocExpr.Bounds
import VDebugger.LocExpr.Straight

namespace VDebugger

open Machine Reference

variable {env : ExprEnv} {ops : List (DwRes LocOp)} {index : Nat} {s t : LocExpr}

-- The entries from index 0 on, the last one first.
def entriesBelow (opStack : Int → UWORD) : Nat → Stack
  | 0 => []
  | n + 1 => opStack n :: entriesBelow opStack n

@[simp] theorem entriesBelow_length (opStack : Int → UWORD) (n : Nat) :
    (entriesBelow opStack n).length = n := by
  induction n with
  | zero => rfl
  | succ n ih => simp [entriesBelow, ih]

theorem entriesBelow_stored (opStack : Int → UWORD) (n : Nat) :
    Stored opStack (entriesBelow opStack n) := by
  induction n with
  | zero => trivial
  | succ n ih =>
      refine ⟨?_, ih⟩
      rw [entriesBelow_length]

-- An evaluator whose top is in bounds holds a stack.
theorem Bounded.holds (h : Bounded s) : ∃ stack, Holds s.locInfo s stack := by
  have hnonneg := h.nonneg
  have hsize : s.stackTop ≤ 256 := h.le_size
  refine ⟨entriesBelow s.opStack s.stackTop.toNat, rfl, ?_, ?_, entriesBelow_stored _ _⟩
  · rw [entriesBelow_length]
    omega
  · rw [entriesBelow_length]
    omega

-- Two lists that the evaluator holds are one.
theorem Stored.unique {opStack : Int → UWORD} {stack other : Stack} (h : Stored opStack stack)
    (h' : Stored opStack other) (hlength : stack.length = other.length) : stack = other := by
  induction stack generalizing other with
  | nil => exact (List.length_eq_zero_iff.mp hlength.symm).symm
  | cons top rest ih =>
      cases other with
      | nil => simp at hlength
      | cons top' rest' =>
          have hrest : rest.length = rest'.length := by simpa using hlength
          rw [ih h.2 h'.2 hrest]
          have htop : opStack rest.length = top := h.1
          have htop' : opStack rest'.length = top' := h'.1
          rw [← htop, ← htop', hrest]

theorem Holds.unique {locInfo other : LocInfo} {stack stack' : Stack} (h : Holds locInfo s stack)
    (h' : Holds other s stack') : stack = stack' := by
  have htop := h.top
  have htop' := h'.top
  exact h.entries.unique h'.entries (by omega)

-- The operation succeeds, goes on with the next one and leaves this stack.
def Leaves (env : ExprEnv) (loc : LocOp) (s : LocExpr) (stack : Stack) : Prop :=
  ∃ t, parseOpcode env loc s = (.ok (DwExprAction.NEXT_OP.code, 0), t) ∧ Holds s.locInfo t stack

theorem Leaves.iff_eq {loc : LocOp} {stack : Stack} (h : Leaves env loc s stack) (other : Stack) :
    Leaves env loc s other ↔ stack = other := by
  constructor
  · rintro ⟨u, hu, hheld⟩
    obtain ⟨t, ht, hholds⟩ := h
    obtain rfl : t = u := congrArg Prod.snd (ht.symm.trans hu)
    exact hholds.unique hheld
  · rintro rfl
    exact h

-- An operation that fails leaves none.
theorem not_leaves_of_error {loc : LocOp} {code : Int}
    (h : parseOpcode env loc s = (.error code, t)) (stack : Stack) : ¬Leaves env loc s stack := by
  rintro ⟨u, hu, _⟩
  rw [h] at hu
  cases hu

theorem Leaves.of_nextOp {loc : LocOp} {x : ExprM Unit} {stack : Stack}
    (hop : parseOpcode env loc = nextOp x) (hx : x s = (.ok (), t))
    (hholds : Holds s.locInfo t stack) : Leaves env loc s stack :=
  ⟨t, by rw [hop]; exact Action.bind_of_ok hx _, hholds⟩

-- An operation that comes to a push.
theorem push_leaves {loc : LocOp} {x : ExprM Unit} {stack : Stack} {tkn : UWORD}
    (hop : parseOpcode env loc = nextOp x) (hx : x s = pushExprTkn tkn s)
    (h : Holds s.locInfo s stack) (hroom : stack.length < 256) :
    Leaves env loc s (tkn :: stack) := by
  have hpush := push_agrees h tkn
  rw [limit_of_le (by rw [List.length_cons]; omega)] at hpush
  obtain ⟨t, ht, hholds⟩ := hpush
  exact .of_nextOp hop (hx.trans ht) hholds

theorem push_overflows {loc : LocOp} {x : ExprM Unit} {stack : Stack} {tkn : UWORD}
    (hop : parseOpcode env loc = nextOp x) (hx : x s = pushExprTkn tkn s)
    (h : Holds s.locInfo s stack) (hfull : stack.length = 256) :
    ∃ code t, parseOpcode env loc s = (.error code, t) := by
  have hpush := push_agrees h tkn
  rw [limit_of_lt (by rw [List.length_cons]; omega)] at hpush
  obtain ⟨code, t, ht⟩ := hpush
  exact ⟨code, t, by rw [hop]; exact Action.bind_of_error (hx.trans ht) _⟩

-- No memory can be read, and what has no value is zero.
def noEnv : ExprEnv := ⟨fun _ => none, fun _ => 0⟩

-- An evaluator with so many entries, all of them this word.
def holding (locInfo : LocInfo) (word : UWORD) (count : Nat) : LocExpr where
  locInfo
  opStack _ := word
  stackTop := count
  written i := 0 ≤ i && i < count
  accesses := []

theorem holding_holds (locInfo : LocInfo) (word : UWORD) {count : Nat} (hsize : count ≤ 256) :
    Holds locInfo (holding locInfo word count) (List.replicate count word) := by
  refine ⟨rfl, by simp [holding], by simpa using hsize, ?_⟩
  clear hsize
  induction count with
  | zero => trivial
  | succ count ih => exact ⟨rfl, ih⟩

theorem pushExprTkn_locInfo (tkn : UWORD) (s : LocExpr) :
    (pushExprTkn tkn s).2.locInfo = s.locInfo := by
  unfold pushExprTkn
  rw [Action.bind_of_ok (Action.fetch_apply s)]
  by_cases hfull : s.stackTop = EXPR_STACK_SIZE
  · rw [Action.bind_of_error (Action.failIf_of hfull _ s)]
  · rw [Action.bind_of_ok (Action.failIf_of_not hfull _ s)]
    rfl

-- No operation changes what the evaluator was given.
theorem locInfo_stackInvariant (locInfo : LocInfo) :
    StackInvariant fun s => s.locInfo = locInfo where
  push tkn s h := (pushExprTkn_locInfo tkn s).trans h
  pop s h := by
    unfold popStackTop
    rw [Action.bind_of_ok (Action.fetch_apply s)]
    by_cases hempty : s.stackTop = 0
    · rw [Action.bind_of_error (Action.failIf_of hempty _ s)]
      exact h
    · rw [Action.bind_of_ok (Action.failIf_of_not hempty _ s)]
      exact h
  pick op1 s h := by
    unfold parseOpPick
    rw [Action.bind_of_ok (Action.fetch_apply s)]
    by_cases hout : op1 ≥ BitVec.ofInt 64 s.stackTop
    · rw [Action.bind_of_error (Action.failIf_of hout _ s)]
      exact h
    · rw [Action.bind_of_ok (Action.failIf_of_not hout _ s)]
      exact (pushExprTkn_locInfo _ _).trans h

-- The loop of `evaluate_expr` is at an operation, with the evaluator as it is then, after
-- so many passes.
inductive Reaches (env : ExprEnv) (ops : List (DwRes LocOp)) (index : Nat) (s : LocExpr) :
    Nat → Nat → LocExpr → Prop
  | start : Reaches env ops index s 0 index s
  | pass {passes i next : Nat} {t u : LocExpr} (before : Reaches env ops index s passes i t)
      (more : i < ops.length) (here : evalPass env ops i t = (.ok next, u)) :
      Reaches env ops index s (passes + 1) next u

variable {passes i : Nat}

theorem Reaches.evalLoop_eq (h : Reaches env ops index s passes i t) (fuel : Nat) :
    evalLoop env ops (passes + fuel) index s = evalLoop env ops fuel i t := by
  induction h generalizing fuel with
  | start => rw [Nat.zero_add]
  | @pass passes i next t u _ more here ih =>
      have hfuel : passes + 1 + fuel = passes + (fuel + 1) := by omega
      rw [hfuel, ih, evalLoop_more env fuel more, Action.bind_of_ok here]

theorem Reaches.preserves {inv : LocExpr → Prop} (hinv : StackInvariant inv)
    (h : Reaches env ops index s passes i t) (hs : inv s) : inv t := by
  induction h with
  | start => exact hs
  | @pass passes i next t u _ _ here ih =>
      have hkept := evalPass_preserves hinv env ops i t ih
      rwa [here] at hkept

-- What has ended does not change with the passes that are observed.
theorem evalLoop_mono {fuel more : Nat} (hle : fuel ≤ more)
    (h : (evalLoop env ops fuel i s).1 ≠ .pending) :
    evalLoop env ops more i s = evalLoop env ops fuel i s := by
  induction fuel generalizing more i s with
  | zero =>
      by_cases hmore : i < ops.length
      · have hblocked : (evalLoop env ops 0 i s).1 = .pending := by
          unfold evalLoop
          rw [if_pos hmore]
          rfl
        exact absurd hblocked h
      · rw [evalLoop_end env more hmore, evalLoop_end env 0 hmore]
  | succ fuel ih =>
      obtain ⟨more, rfl⟩ : ∃ n, more = n + 1 := ⟨more - 1, by omega⟩
      by_cases hmore : i < ops.length
      · rw [evalLoop_more env fuel hmore] at h ⊢
        rw [evalLoop_more env more hmore]
        rcases hpass : evalPass env ops i s with ⟨next | code | _, t⟩
        · rw [Action.bind_of_ok hpass] at h ⊢
          rw [Action.bind_of_ok hpass]
          exact ih (by omega) h
        · rw [Action.bind_of_error hpass, Action.bind_of_error hpass]
        · rw [Action.bind_of_pending hpass, Action.bind_of_pending hpass]
      · rw [evalLoop_end env _ hmore, evalLoop_end env _ hmore]

theorem evaluateExpr_mono {fuel more : Nat} (hle : fuel ≤ more)
    (h : (evaluateExpr env fuel ops index s).1 ≠ .pending) :
    evaluateExpr env more ops index s = evaluateExpr env fuel ops index s := by
  have hloop : (evalLoop env ops fuel index s).1 ≠ .pending := by
    intro hpending
    rcases hrun : evalLoop env ops fuel index s with ⟨res, t⟩
    rw [hrun] at hpending
    obtain rfl : res = .pending := hpending
    unfold evaluateExpr at h
    rw [Action.bind_of_pending hrun] at h
    exact h rfl
  unfold evaluateExpr
  rw [Action.bind_apply, Action.bind_apply, evalLoop_mono hle hloop]

-- Two observations of one evaluation that have both ended are the same.
theorem evaluateExpr_agrees {fuel other : Nat}
    (h : (evaluateExpr env fuel ops index s).1 ≠ .pending)
    (h' : (evaluateExpr env other ops index s).1 ≠ .pending) :
    evaluateExpr env fuel ops index s = evaluateExpr env other ops index s := by
  rw [← evaluateExpr_mono (Nat.le_max_left fuel other) h,
    ← evaluateExpr_mono (Nat.le_max_right fuel other) h']

-- A result code below zero is no error.
theorem evalOp_of_result {loc : LocOp} {res : Int} {skipBytes : BitVec 16} {t : LocExpr}
    (h : parseOpcode env loc s = (.ok (res, skipBytes), t)) (hres : res < 0) :
    evalOp env loc s = (.ok skipBytes, t) := by
  have hpass : ¬(res ≠ DwExprAction.NEXT_OP.code ∧
      (res = DwExprAction.PARSE_PIECE.code ∨ ¬res < 0)) := by
    have hpiece : DwExprAction.PARSE_PIECE.code = 1 := rfl
    omega
  unfold evalOp
  rw [Action.bind_of_ok (Action.orFail_eq_ok.mpr h)]
  exact Action.bind_of_ok (Action.failIf_of_not hpass 1 t) _

-- The loop ends behind this operation, which takes the evaluator from `t` to `u`.
structure LastExecuted (env : ExprEnv) (ops : List (DwRes LocOp)) (index : Nat) (s : LocExpr)
    (passes : Nat) (loc : LocOp) (t u : LocExpr) : Prop where
  pass : ∃ i next, Reaches env ops index s passes i t ∧ ops[i]? = some (.ok loc) ∧
    evalPass env ops i t = (.ok next, u) ∧ ops.length ≤ next

variable {loc : LocOp} {u : LocExpr}

theorem LastExecuted.evalLoop_eq (h : LastExecuted env ops index s passes loc t u) {fuel : Nat}
    (hfuel : passes < fuel) : evalLoop env ops fuel index s = (.ok (), u) := by
  obtain ⟨i, next, hreach, hget, hpass, hend⟩ := h.pass
  have hmore : i < ops.length := (List.getElem?_eq_some_iff.mp hget).1
  have hlast := Reaches.pass hreach hmore hpass
  obtain ⟨rest, rfl⟩ : ∃ n, fuel = passes + 1 + n := ⟨fuel - (passes + 1), by omega⟩
  rw [hlast.evalLoop_eq, evalLoop_end env rest (by omega)]
  rfl

-- What such an evaluation gives is the top of the stack it ends with.
theorem LastExecuted.evaluateExpr_eq (h : LastExecuted env ops index s passes loc t u)
    {locInfo : LocInfo} {top : UWORD} {rest : Stack} (hu : Holds locInfo u (top :: rest))
    {fuel : Nat} (hfuel : passes < fuel) : (evaluateExpr env fuel ops index s).1 = .ok top := by
  obtain ⟨v, hpop, _⟩ := pop_cons hu
  unfold evaluateExpr
  rw [Action.bind_of_ok (h.evalLoop_eq hfuel), Action.orFail_eq_ok.mpr hpop]

theorem LastExecuted.evaluateExpr_value (h : LastExecuted env ops index s passes loc t u)
    {locInfo : LocInfo} {top : UWORD} {rest : Stack} (hu : Holds locInfo u (top :: rest))
    {fuel : Nat} {value : UWORD} (hvalue : (evaluateExpr env fuel ops index s).1 = .ok value) :
    value = top := by
  have htop := h.evaluateExpr_eq hu (Nat.lt_succ_self passes)
  have hends : (evaluateExpr env fuel ops index s).1 ≠ .pending := by
    rw [hvalue]
    exact fun h => nomatch h
  have hends' : (evaluateExpr env (passes + 1) ops index s).1 ≠ .pending := by
    rw [htop]
    exact fun h => nomatch h
  rw [evaluateExpr_agrees hends hends', htop] at hvalue
  exact (Outcome.ok.inj hvalue).symm

-- The evaluator as `get_var_location` hands it to `evaluate_expr`.
def LocInfo.startExpr (locInfo : LocInfo) : LocExpr := (pushInitial locInfo locInfo.freshExpr).2

theorem LocInfo.startExpr_bounded (locInfo : LocInfo) : Bounded locInfo.startExpr :=
  pushInitial_closed bounded_stackInvariant.closed locInfo _ locInfo.freshExpr_bounded

theorem LocInfo.startExpr_locInfo (locInfo : LocInfo) : locInfo.startExpr.locInfo = locInfo :=
  pushInitial_closed (locInfo_stackInvariant locInfo).closed locInfo _ rfl

-- What the loop has come to holds a stack, with what the evaluation was given.
theorem Reaches.holds {locInfo : LocInfo} (h : Reaches env ops index locInfo.startExpr passes i t) :
    ∃ stack, Holds locInfo t stack := by
  obtain ⟨stack, hstack⟩ :=
    (h.preserves bounded_stackInvariant locInfo.startExpr_bounded).holds
  have hinfo := h.preserves (locInfo_stackInvariant locInfo) locInfo.startExpr_locInfo
  rw [hinfo] at hstack
  exact ⟨stack, hstack⟩

end VDebugger
