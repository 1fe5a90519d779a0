import VDebugger.LocExpr.Invariant

namespace VDebugger

open Machine

-- The access is to an entry of `op_stack`, and one that is read was written before.
structure Access.InBounds (access : Access) : Prop where
  top_nonneg : 0 ≤ access.top
  top_le : access.top ≤ EXPR_STACK_SIZE
  index_nonneg : 0 ≤ access.index
  index_lt : access.index < EXPR_STACK_SIZE
  read : access.write = false → access.written = true

structure Bounded (s : LocExpr) : Prop where
  nonneg : 0 ≤ s.stackTop
  le_size : s.stackTop ≤ EXPR_STACK_SIZE
  filled : ∀ i, 0 ≤ i → i < s.stackTop → s.written i = true
  accesses : ∀ access ∈ s.accesses, access.InBounds

theorem LocInfo.freshExpr_bounded (locInfo : LocInfo) : Bounded locInfo.freshExpr where
  nonneg := by simp [LocInfo.freshExpr]
  le_size := by simp [LocInfo.freshExpr, EXPR_STACK_SIZE]
  filled i hi hlt := by
    simp only [LocInfo.freshExpr] at hlt
    omega
  accesses access hmem := nomatch hmem

-- A read below the top is in bounds and changes nothing else.
theorem readStack_bounded {s : LocExpr} {index : Int} (h : Bounded s) (hlow : 0 ≤ index)
    (hhigh : index < s.stackTop) : Bounded (readStack index s).2 where
  nonneg := h.nonneg
  le_size := h.le_size
  filled := h.filled
  accesses access hmem := by
    have hsize := h.le_size
    rcases List.mem_cons.mp hmem with rfl | hmem
    · exact ⟨h.nonneg, hsize, hlow, Int.lt_of_lt_of_le hhigh hsize, fun _ => h.filled index hlow hhigh⟩
    · exact h.accesses access hmem

theorem pushExprTkn_bounded (tkn : UWORD) : (pushExprTkn tkn).Preserves Bounded := by
  intro s h
  unfold pushExprTkn
  rw [Action.bind_of_ok (Action.fetch_apply s)]
  by_cases hfull : s.stackTop = EXPR_STACK_SIZE
  · rw [Action.bind_of_error (Action.failIf_of hfull _ s)]
    exact h
  · rw [Action.bind_of_ok (Action.failIf_of_not hfull _ s)]
    have hnonneg := h.nonneg
    have hle := h.le_size
    have hroom : s.stackTop < EXPR_STACK_SIZE := by omega
    refine ⟨?_, ?_, fun i hi hlt => ?_, fun access hmem => ?_⟩
    · show 0 ≤ s.stackTop + 1
      omega
    · show s.stackTop + 1 ≤ EXPR_STACK_SIZE
      omega
    · show (decide (i = s.stackTop) || s.written i) = true
      have hlt : i < s.stackTop + 1 := hlt
      by_cases htop : i = s.stackTop
      · simp [htop]
      · rw [h.filled i hi (by omega), Bool.or_true]
    · rcases List.mem_cons.mp hmem with rfl | hmem
      · exact ⟨hnonneg, hle, hnonneg, hroom, fun hread => nomatch hread⟩
      · exact h.accesses access hmem

theorem popStackTop_bounded : popStackTop.Preserves Bounded := by
  intro s h
  unfold popStackTop
  rw [Action.bind_of_ok (Action.fetch_apply s)]
  by_cases hempty : s.stackTop = 0
  · rw [Action.bind_of_error (Action.failIf_of hempty _ s)]
    exact h
  · rw [Action.bind_of_ok (Action.failIf_of_not hempty _ s)]
    have hnonneg := h.nonneg
    have hle := h.le_size
    have hlast : 0 ≤ s.stackTop - 1 := by omega
    have hread := readStack_bounded h hlast (by omega)
    refine ⟨?_, ?_, fun i hi hlt => ?_, hread.accesses⟩
    · show 0 ≤ s.stackTop - 1
      omega
    · show s.stackTop - 1 ≤ EXPR_STACK_SIZE
      omega
    · have hlt : i < s.stackTop - 1 := hlt
      exact h.filled i hi (by omega)

-- An index that passes the check is one below the top, whatever the operand is.
theorem parseOpPick_bounded (op1 : UWORD) : (parseOpPick op1).Preserves Bounded := by
  intro s h
  unfold parseOpPick
  rw [Action.bind_of_ok (Action.fetch_apply s)]
  by_cases hout : op1 ≥ BitVec.ofInt 64 s.stackTop
  · rw [Action.bind_of_error (Action.failIf_of hout _ s)]
    exact h
  · rw [Action.bind_of_ok (Action.failIf_of_not hout _ s)]
    have hnonneg := h.nonneg
    have hle : s.stackTop ≤ 256 := h.le_size
    obtain ⟨top, htop⟩ := Int.eq_ofNat_of_zero_le hnonneg
    have hbelow : op1.toNat < top := by
      have hlt : op1 < BitVec.ofInt 64 s.stackTop := by simpa using hout
      rw [htop] at hlt
      have hnat : op1.toNat < (BitVec.ofNat 64 top).toNat := hlt
      rw [BitVec.toNat_ofNat] at hnat
      omega
    have hpicked : 0 ≤ s.stackTop - 1 - op1.toNat := by omega
    have hread := readStack_bounded h hpicked (by omega)
    exact pushExprTkn_bounded _ _ hread

theorem bounded_stackInvariant : StackInvariant Bounded where
  push := pushExprTkn_bounded
  pop := popStackTop_bounded
  pick := parseOpPick_bounded

-- However long an evaluation goes on, whatever its operations, operands and initial entry
-- are and whatever the debugee's memory holds: no access to the stack was out of bounds
-- or read what had not been written.
theorem stack_in_bounds (env : ExprEnv) (fuel : Nat) (locInfo : LocInfo) :
    (∀ loclist, Bounded (getVarLocation env fuel loclist locInfo.freshExpr).2) ∧
      ∀ ops index, Bounded (evaluateExpr env fuel ops index locInfo.freshExpr).2 :=
  ⟨fun loclist => getVarLocation_preserves bounded_stackInvariant env fuel loclist _
      locInfo.freshExpr_bounded,
    fun ops index => evaluateExpr_preserves bounded_stackInvariant env fuel ops index _
      locInfo.freshExpr_bounded⟩

end VDebugger
