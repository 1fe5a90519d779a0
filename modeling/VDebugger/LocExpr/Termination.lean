import VDebugger.LocExpr.Bounds
import VDebugger.LocExpr.Branches

namespace VDebugger

open Machine

variable {env : ExprEnv} {s t u : LocExpr} {loc : LocOp}

-- The loop of `evaluate_expr` ends from `i` on, after however many passes.
inductive LoopEnds (env : ExprEnv) (ops : List (DwRes LocOp)) : Nat → LocExpr → Prop where
  | intro {i : Nat} {s : LocExpr}
      (after : ∀ next t, i < ops.length → evalPass env ops i s = (.ok next, t) →
        LoopEnds env ops next t) : LoopEnds env ops i s

-- A loop that ends gives the same for every number of passes that is large enough.
theorem LoopEnds.evalLoop_eventually {ops : List (DwRes LocOp)} {i : Nat}
    (h : LoopEnds env ops i s) :
    ∃ passes, ∀ fuel, passes ≤ fuel → evalLoop env ops fuel i s = evalLoop env ops passes i s := by
  induction h with
  | @intro i s _ ih =>
      by_cases hmore : i < ops.length
      · rcases hpass : evalPass env ops i s with ⟨next | code | _, t⟩
        · obtain ⟨passes, hrest⟩ := ih next t hmore hpass
          refine ⟨passes + 1, fun fuel hfuel => ?_⟩
          obtain ⟨fuel, rfl⟩ : ∃ n, fuel = n + 1 := ⟨fuel - 1, by omega⟩
          rw [evalLoop_more env fuel hmore, evalLoop_more env passes hmore,
            Action.bind_of_ok hpass, Action.bind_of_ok hpass]
          exact hrest fuel (by omega)
        · refine ⟨1, fun fuel hfuel => ?_⟩
          obtain ⟨fuel, rfl⟩ : ∃ n, fuel = n + 1 := ⟨fuel - 1, by omega⟩
          rw [evalLoop_more env fuel hmore, evalLoop_more env 0 hmore,
            Action.bind_of_error hpass, Action.bind_of_error hpass]
        · refine ⟨1, fun fuel hfuel => ?_⟩
          obtain ⟨fuel, rfl⟩ : ∃ n, fuel = n + 1 := ⟨fuel - 1, by omega⟩
          rw [evalLoop_more env fuel hmore, evalLoop_more env 0 hmore,
            Action.bind_of_pending hpass, Action.bind_of_pending hpass]
      · refine ⟨0, fun fuel _ => ?_⟩
        rw [evalLoop_end env fuel hmore, evalLoop_end env 0 hmore]

-- The operations from the first to the last of a list, a `bra` as often as the word it
-- pops is not zero, lead from one state to another.
inductive Through (env : ExprEnv) : List (DwRes LocOp) → LocExpr → LocExpr → Prop where
  | done (s : LocExpr) : Through env [] s s
  | next {loc : LocOp} {rest : List (DwRes LocOp)} {s t u : LocExpr}
      (here : evalOp env loc s = (.ok 0, t)) (after : Through env rest t u) :
      Through env (.ok loc :: rest) s u
  | again {loc : LocOp} {rest : List (DwRes LocOp)} {s t u : LocExpr}
      (branch : loc.op = .DW_OP_bra) (taken : loc.Taken s) (forward : 0 < loc.displacement)
      (here : evalOp env loc s = (.ok (loc.opd1.setWidth 16), t))
      (after : Through env (.ok loc :: rest) t u) : Through env (.ok loc :: rest) s u

theorem nextOp_bytes {x : ExprM Unit} {code : Int} {bytes : BitVec 16}
    (h : nextOp x s = (.ok (code, bytes), t)) : bytes = 0 := by
  obtain ⟨_, u, _, hpure⟩ := Action.bind_eq_ok.mp h
  cases hpure
  rfl

theorem push_register_bytes {tkn : UWORD} {code : Int} {bytes : BitVec 16} {res : Int}
    (h : (do
      pushExprTkn tkn
      pure (res, 0) : ExprM (Int × BitVec 16)) s = (.ok (code, bytes), t)) : bytes = 0 := by
  obtain ⟨_, u, _, hpure⟩ := Action.bind_eq_ok.mp h
  cases hpure
  rfl

-- Only a branch and `piece` give bytes to skip.
theorem parseOpcode_bytes {code : Int} {bytes : BitVec 16}
    (h : parseOpcode env loc s = (.ok (code, bytes), t)) :
    bytes = 0 ∨ loc.IsBranch ∨ loc.op = .DW_OP_piece := by
  obtain ⟨op, opd1, opd2, opd3, offset⟩ := loc
  cases op
  case DW_OP_skip => exact Or.inr (Or.inl (Or.inl rfl))
  case DW_OP_bra => exact Or.inr (Or.inl (Or.inr rfl))
  case DW_OP_piece => exact Or.inr (Or.inr rfl)
  case DW_OP_reg | DW_OP_regx => exact Or.inl (push_register_bytes h)
  case DW_OP_implicit_value | DW_OP_stack_value | DW_OP_implicit_pointer =>
    cases h
    exact Or.inl rfl
  case DW_OP_xderef | DW_OP_xderef_size | DW_OP_xderef_type | DW_OP_addrx | DW_OP_constx |
      DW_OP_entry_value | DW_OP_bit_piece | DW_OP_call2 | DW_OP_call4 | DW_OP_call_ref |
      DW_OP_form_tls_address | DW_OP_const_type | DW_OP_regval_type | DW_OP_deref_type |
      DW_OP_convert | DW_OP_reinterpret | other =>
    cases h
  all_goals exact Or.inl (nextOp_bytes h)

theorem evalOp_eq_ok {bytes : BitVec 16} (h : evalOp env loc s = (.ok bytes, t)) :
    ∃ code, parseOpcode env loc s = (.ok (code, bytes), t) ∧
      code ≠ DwExprAction.PARSE_PIECE.code := by
  obtain ⟨⟨code, bytes'⟩, u, hop, hrest⟩ := Action.bind_eq_ok.mp h
  obtain ⟨_, v, hpass, hpure⟩ := Action.bind_eq_ok.mp hrest
  obtain ⟨hgoesOn, rfl⟩ := Action.failIf_eq_ok.mp hpass
  cases hpure
  refine ⟨code, Action.orFail_eq_ok.mp hop, fun hpiece => hgoesOn ⟨?_, Or.inl hpiece⟩⟩
  rw [hpiece]
  decide

theorem evalOp_bytes {bytes : BitVec 16} (h : evalOp env loc s = (.ok bytes, t)) :
    bytes = 0 ∨ loc.IsBranch := by
  obtain ⟨code, hop, hcode⟩ := evalOp_eq_ok h
  rcases parseOpcode_bytes hop with hzero | hbranch | hpiece
  · exact Or.inl hzero
  · exact Or.inr hbranch
  · have hres : parseOpcode env loc s
        = (.ok (DwExprAction.PARSE_PIECE.code, loc.opd1.setWidth 16), s) := by
      simp only [parseOpcode, hpiece]
      rfl
    rw [hres] at hop
    cases hop
    exact absurd rfl hcode

theorem LoopEnds.after {ops : List (DwRes LocOp)} {i next : Nat} (h : LoopEnds env ops i s)
    (hmore : i < ops.length) (hpass : evalPass env ops i s = (.ok next, t)) :
    LoopEnds env ops next t := by
  cases h with
  | intro after => exact after next t hmore hpass

-- What ends from the first of some operations on ends after them.
theorem Through.loopEnds {ops before rest after : List (DwRes LocOp)}
    (hthrough : Through env rest s t) (hops : ops = before ++ (rest ++ after))
    (h : LoopEnds env ops before.length s) : LoopEnds env ops (before ++ rest).length t := by
  induction hthrough generalizing before with
  | done s =>
      rw [List.append_nil]
      exact h
  | @next loc rest s t u here _ ih =>
      have hget : ops[before.length]? = some (.ok loc) := by simp [hops]
      have hmore : before.length < ops.length := by simp [hops]
      have hnext := h.after hmore (evalPass_zero hget here)
      have hmid : LoopEnds env ops (before ++ [DwRes.ok loc]).length t := by simpa using hnext
      have hend := ih (by simp [hops]) hmid
      simpa using hend
  | @again loc rest s t u _ _ forward here _ ih =>
      have hget : ops[before.length]? = some (.ok loc) := by simp [hops]
      have hmore : before.length < ops.length := by simp [hops]
      exact ih hops (h.after hmore (evalPass_forward hget forward here))

-- A pass over a forward `skip` changes nothing.
theorem not_loopEnds_of_skip {ops : List (DwRes LocOp)} {i : Nat}
    (hget : ops[i]? = some (.ok loc)) (hskip : loc.op = .DW_OP_skip)
    (hforward : 0 < loc.displacement) : ¬LoopEnds env ops i s := by
  intro h
  have hmore : i < ops.length := (List.getElem?_eq_some_iff.mp hget).1
  have hpass := evalPass_forward hget hforward (evalOp_skip env hskip s)
  generalize hi : i = j at h
  generalize hs : s = u at h
  induction h with
  | intro after ih =>
      subst hi hs
      exact ih _ _ hmore hpass rfl rfl

-- The branches of a list lead nowhere backward.
def ForwardOnly (ops : List (DwRes LocOp)) : Prop :=
  ∀ loc, .ok loc ∈ ops → loc.IsBranch → 0 ≤ loc.displacement

-- A `skip` with a positive displacement is reached.
def ReachesSkip (env : ExprEnv) (ops : List (DwRes LocOp)) (s : LocExpr) : Prop :=
  ∃ before loc after t, ops = before ++ .ok loc :: after ∧ loc.op = .DW_OP_skip ∧
    0 < loc.displacement ∧ Through env before s t

theorem evalOp_bra_entry {bytes : BitVec 16} (hbra : loc.op = .DW_OP_bra)
    (h : evalOp env loc s = (.ok bytes, t)) : s.stackTop ≠ 0 := by
  intro hempty
  obtain ⟨code, hop, _⟩ := evalOp_eq_ok h
  simp only [parseOpcode, hbra] at hop
  obtain ⟨_, u, hparse, _⟩ := Action.bind_eq_ok.mp hop
  obtain ⟨_, v, hpop, _⟩ := Action.bind_eq_ok.mp hparse
  unfold popStackTop at hpop
  rw [Action.bind_of_ok (Action.fetch_apply s),
    Action.bind_of_error (Action.failIf_of hempty _ s)] at hpop
  cases hpop

-- A pass that gives bytes to skip, where no branch is backward.
theorem evalOp_forward {bytes : BitVec 16} (hloc : loc.IsBranch → 0 ≤ loc.displacement)
    (h : evalOp env loc s = (.ok bytes, t)) (hne : bytes ≠ 0) :
    0 < loc.displacement ∧ loc.Taken s ∧ bytes = loc.opd1.setWidth 16 ∧
      (loc.op = .DW_OP_bra → s.stackTop ≠ 0 ∧ t.stackTop = s.stackTop - 1) := by
  have hbranch := (evalOp_bytes h).resolve_left hne
  have hsign := hloc hbranch
  have hentry (hbra : loc.op = .DW_OP_bra) : s.stackTop ≠ 0 := evalOp_bra_entry hbra h
  have hbytes : loc.Taken s ∧ bytes = loc.opd1.setWidth 16 := by
    obtain ⟨u, htaken, huntaken⟩ := evalOp_branch env hbranch hentry
    by_cases htake : loc.Taken s
    · rw [htaken htake] at h
      cases h
      exact ⟨htake, rfl⟩
    · rw [huntaken htake] at h
      cases h
      exact absurd rfl hne
  have hdisplacement : loc.displacement ≠ 0 := fun hzero =>
    hne (by rw [hbytes.2, displacement_eq_zero_iff.mp hzero])
  refine ⟨by omega, hbytes.1, hbytes.2, fun hbra => ⟨hentry hbra, ?_⟩⟩
  obtain ⟨u, htop, hu⟩ := evalOp_bra env hbra (hentry hbra)
  rw [hu] at h
  cases h
  exact htop

theorem ReachesSkip.of_next {rest : List (DwRes LocOp)} (here : evalOp env loc s = (.ok 0, t))
    (h : ReachesSkip env rest t) : ReachesSkip env (.ok loc :: rest) s := by
  obtain ⟨before, skip, after, u, hrest, hskip, hforward, hthrough⟩ := h
  exact ⟨.ok loc :: before, skip, after, u, by rw [hrest]; rfl, hskip, hforward, .next here hthrough⟩

theorem ReachesSkip.of_again {rest : List (DwRes LocOp)} (hbra : loc.op = .DW_OP_bra)
    (htaken : loc.Taken s) (hforward : 0 < loc.displacement)
    (here : evalOp env loc s = (.ok (loc.opd1.setWidth 16), t))
    (h : ReachesSkip env (.ok loc :: rest) t) : ReachesSkip env (.ok loc :: rest) s := by
  obtain ⟨before, skip, after, u, hops, hskip, hfar, hthrough⟩ := h
  cases before with
  | nil =>
      obtain rfl : loc = skip := by simpa using (List.cons.inj hops).1
      exact absurd (hskip.symm.trans hbra) (by decide)
  | cons first before =>
      obtain ⟨rfl, hrest⟩ := List.cons.inj hops
      exact ⟨.ok loc :: before, skip, after, u, hops, hskip, hfar,
        .again hbra htaken hforward here hthrough⟩

-- A pass ends at the next operation or pops a word that is not zero and stays.
theorem evalPass_cases {ops : List (DwRes LocOp)} {i next : Nat}
    (hget : ops[i]? = some (.ok loc)) (hloc : loc.IsBranch → 0 ≤ loc.displacement)
    (hskip : ¬(loc.op = .DW_OP_skip ∧ 0 < loc.displacement))
    (hpass : evalPass env ops i s = (.ok next, t)) :
    (evalOp env loc s = (.ok 0, t) ∧ next = i + 1) ∨
      (loc.op = .DW_OP_bra ∧ loc.Taken s ∧ 0 < loc.displacement ∧
        evalOp env loc s = (.ok (loc.opd1.setWidth 16), t) ∧ next = i ∧
        s.stackTop ≠ 0 ∧ t.stackTop = s.stackTop - 1) := by
  have hbody := hpass
  unfold evalPass at hbody
  rw [Action.bind_of_ok (getLocationOp_ok hget s)] at hbody
  obtain ⟨bytes, u, hop, _⟩ := Action.bind_eq_ok.mp hbody
  by_cases hzero : bytes = 0
  · subst bytes
    rw [evalPass_zero hget hop] at hpass
    cases hpass
    exact Or.inl ⟨hop, rfl⟩
  · obtain ⟨hforward, htaken, hbytes, hpop⟩ := evalOp_forward hloc hop hzero
    subst bytes
    have hbra : loc.op = .DW_OP_bra := by
      cases htaken with
      | inl hop => exact absurd ⟨hop, hforward⟩ hskip
      | inr hop => exact hop.1
    rw [evalPass_forward hget hforward hop] at hpass
    cases hpass
    exact Or.inr ⟨hbra, htaken, hforward, hop, rfl, hpop hbra⟩

-- The passes over one operation end as each pops a word, those over all of them as each
-- operation is left but once.
theorem loopEnds_of_not_reached (before rest : List (DwRes LocOp)) (hforward : ForwardOnly rest)
    (hbounded : Bounded s) (hnot : ¬ReachesSkip env rest s) :
    LoopEnds env (before ++ rest) before.length s := by
  induction rest generalizing before s with
  | nil =>
      constructor
      intro next t hmore _
      simp at hmore
  | cons op rest ih =>
      induction htop : s.stackTop.toNat using Nat.strong_induction_on generalizing s with
      | h depth ihDepth =>
          have hget : (before ++ op :: rest)[before.length]? = some op := by simp
          constructor
          intro next t _ hpass
          cases op with
          | noEntry =>
              simp only [evalPass, getLocationOp, hget] at hpass
              cases hpass
          | error =>
              simp only [evalPass, getLocationOp, hget] at hpass
              cases hpass
          | ok loc =>
              have hskip : ¬(loc.op = .DW_OP_skip ∧ 0 < loc.displacement) := fun h =>
                hnot ⟨[], loc, rest, s, rfl, h.1, h.2, .done s⟩
              have hloc := hforward loc List.mem_cons_self
              rcases evalPass_cases hget hloc hskip hpass with
                ⟨hop, rfl⟩ | ⟨hbra, htaken, hfar, hop, rfl, hne, hpop⟩
              · have ht : Bounded t := by
                  simpa [hop] using evalOp_preserves bounded_stackInvariant env loc s hbounded
                have hrest := ih (before ++ [.ok loc])
                  (fun loc hmem => hforward loc (List.mem_cons_of_mem _ hmem)) ht
                  fun hreach => hnot (.of_next hop hreach)
                simpa using hrest
              · have ht : Bounded t := by
                  simpa [hop] using evalOp_preserves bounded_stackInvariant env loc s hbounded
                have hnonneg := hbounded.nonneg
                exact ihDepth t.stackTop.toNat (by omega) ht
                  (fun hreach => hnot (.of_again hbra htaken hfar hop hreach)) rfl

-- A positive displacement never passes the comparison that would move the loop on, so
-- that a `skip` forward is executed for ever and a `bra` until it pops a zero.
theorem loop_ends_iff (env : ExprEnv) (locInfo : LocInfo) (ops : List (DwRes LocOp))
    (hforward : ForwardOnly ops) :
    LoopEnds env ops 0 (pushInitial locInfo locInfo.freshExpr).2 ↔
      ¬ReachesSkip env ops (pushInitial locInfo locInfo.freshExpr).2 := by
  have hbounded := pushInitial_closed bounded_stackInvariant.closed locInfo _ locInfo.freshExpr_bounded
  constructor
  · rintro hends ⟨before, loc, after, t, rfl, hskip, hfar, hthrough⟩
    have hops : before ++ .ok loc :: after = [] ++ (before ++ .ok loc :: after) := rfl
    have hat := hthrough.loopEnds hops hends
    have hget : (before ++ .ok loc :: after)[([] ++ before).length]? = some (.ok loc) := by simp
    exact not_loopEnds_of_skip hget hskip hfar hat
  · intro hnot
    exact loopEnds_of_not_reached [] ops hforward hbounded hnot

-- A branch over one byte, after a word that is not zero.
def skipOne (op : DwOp) : List (DwRes LocOp) :=
  [.ok ⟨.DW_OP_lit 1, 0, 0, 0, 0⟩, .ok ⟨op, 1, 0, 0, 1⟩, .ok ⟨.DW_OP_lit 2, 0, 0, 0, 4⟩,
    .ok ⟨.DW_OP_lit 3, 0, 0, 0, 5⟩]

theorem skipOne_forwardOnly (op : DwOp) : ForwardOnly (skipOne op) := by
  intro loc hmem _
  simp only [skipOne, List.mem_cons, DwRes.ok.injEq, List.not_mem_nil, or_false] at hmem
  rcases hmem with rfl | rfl | rfl | rfl <;> simp [LocOp.displacement]

theorem bra_ends :
    LoopEnds ⟨fun _ => none, fun _ => 0⟩ (skipOne .DW_OP_bra) 0
      (pushInitial {} (LocInfo.freshExpr {})).2 := by
  apply (loop_ends_iff _ _ _ (skipOne_forwardOnly _)).mpr
  rintro ⟨before, loc, after, t, hops, hskip, _⟩
  have hmem : DwRes.ok loc ∈ skipOne .DW_OP_bra := by simp [hops]
  simp only [skipOne, List.mem_cons, DwRes.ok.injEq, List.not_mem_nil, or_false] at hmem
  rcases hmem with rfl | rfl | rfl | rfl <;> cases hskip

theorem skip_never_ends :
    ForwardOnly (skipOne .DW_OP_skip) ∧
      ¬LoopEnds ⟨fun _ => none, fun _ => 0⟩ (skipOne .DW_OP_skip) 0
        (pushInitial {} (LocInfo.freshExpr {})).2 := by
  refine ⟨skipOne_forwardOnly _, fun hends => ?_⟩
  have hlit := hends.after (by decide) (evalPass_zero (t := _) rfl rfl)
  have hskip : (skipOne .DW_OP_skip)[1]? = some (.ok ⟨.DW_OP_skip, 1, 0, 0, 1⟩) := rfl
  exact not_loopEnds_of_skip hskip rfl (by decide) hlit

end VDebugger
