import VDebugger.LocExpr

namespace VDebugger

open Machine

variable {α : Type} {Q : (α : Type) → ExprM α → Prop} {inv : LocExpr → Prop}

-- What holds of the three ways to the stack and of every sequence of what it holds of.
structure StackClosed (Q : (α : Type) → ExprM α → Prop) : Prop where
  pure : ∀ {α : Type} (a : α), Q α (Pure.pure a)
  bind : ∀ {α β : Type} {x : ExprM α} {f : α → ExprM β}, Q α x → (∀ a, Q β (f a)) → Q β (x >>= f)
  fail : ∀ {α : Type} (code : Int), Q α (Action.fail code)
  failIf : ∀ (c : Prop) [Decidable c] (code : Int), Q Unit (Action.failIf c code)
  fetch : Q LocExpr Action.fetch
  orFail : ∀ {α : Type} {x : ExprM α}, Q α x → ∀ code, Q α (x.orFail code)
  attempt : ∀ {α : Type} {x : ExprM α}, Q α x → Q (Option α) x.attempt
  push : ∀ tkn, Q Unit (pushExprTkn tkn)
  pop : Q UWORD popStackTop
  pick : ∀ op1, Q Unit (parseOpPick op1)

section

variable (hQ : StackClosed Q)

include hQ

theorem nextOp_closed {x : ExprM Unit} (h : Q Unit x) : Q _ (nextOp x) :=
  hQ.bind h fun _ => hQ.pure _

theorem readRegister_closed (reg : Nat) : Q UWORD (readRegister reg) := by
  refine hQ.bind (x := Action.fetch) hQ.fetch fun s => ?_
  cases getRegister (reg % 2 ^ 32) with
  | none => exact hQ.fail _
  | some reg => exact hQ.pure _

theorem pushIgnored_closed (tkn : UWORD) : Q Unit (pushIgnored tkn) :=
  hQ.bind (hQ.attempt (hQ.push tkn)) fun _ => hQ.pure _

-- The operations that take two entries off the stack before anything else.
theorem popTwo_closed {f : UWORD → UWORD → ExprM α} (h : ∀ b c, Q α (f b c)) :
    Q α (do
      let b ← popStackTop
      let c ← popStackTop
      f b c) :=
  hQ.bind hQ.pop fun b => hQ.bind hQ.pop fun c => h b c

theorem popThree_closed {f : UWORD → UWORD → UWORD → ExprM α} (h : ∀ a b c, Q α (f a b c)) :
    Q α (do
      let a ← popStackTop
      let b ← popStackTop
      let c ← popStackTop
      f a b c) :=
  hQ.bind hQ.pop fun a => popTwo_closed hQ (h a)

theorem ubinop_closed (f : UWORD → UWORD → UWORD) : Q Unit (ubinop f) :=
  popTwo_closed hQ fun _ _ => pushIgnored_closed hQ _

theorem sbinop_closed (f : UWORD → UWORD → Bool) : Q Unit (sbinop f) :=
  popTwo_closed hQ fun _ _ => pushIgnored_closed hQ _

theorem parseOpDeref_closed (env : ExprEnv) : Q Unit (parseOpDeref env) := by
  refine hQ.bind (x := popStackTop) hQ.pop fun b => ?_
  cases env.peek b with
  | none => exact hQ.fail _
  | some data => exact hQ.push data

theorem parseOpShra_closed : Q Unit parseOpShra := by
  apply popTwo_closed hQ
  intro b c
  split
  · exact hQ.push _
  · split
    · exact hQ.push _
    · exact hQ.push _

theorem pushTwo_closed (b c : UWORD) :
    Q Unit (do
      pushExprTkn b
      pushExprTkn c) :=
  hQ.bind (hQ.push b) fun _ => hQ.push c

theorem pop_push_closed (f : UWORD → UWORD) :
    Q Unit (do
      let b ← popStackTop
      pushExprTkn (f b)) :=
  hQ.bind hQ.pop fun b => hQ.push (f b)

theorem fetch_push_closed (f : LocExpr → UWORD) :
    Q Unit (do
      let s ← Action.fetch
      pushExprTkn (f s)) :=
  hQ.bind hQ.fetch fun s => hQ.push (f s)

theorem push_result_closed (tkn : UWORD) (res : Int × BitVec 16) :
    Q _ (do
      pushExprTkn tkn
      pure res) :=
  hQ.bind (hQ.push tkn) fun _ => hQ.pure res

-- The two divisions have no result for some operands.
theorem parseOpcode_closed (env : ExprEnv) (loc : LocOp)
    (hdiv : loc.op = .DW_OP_div → Q Unit parseOpDiv)
    (hmod : loc.op = .DW_OP_mod → Q Unit parseOpMod) : Q _ (parseOpcode env loc) := by
  obtain ⟨op, opd1, opd2, opd3, offset⟩ := loc
  cases op
  case DW_OP_addr => exact nextOp_closed hQ (fetch_push_closed hQ _)
  case DW_OP_fbreg => exact nextOp_closed hQ (fetch_push_closed hQ _)
  case DW_OP_push_object_address => exact nextOp_closed hQ (fetch_push_closed hQ _)
  case DW_OP_call_frame_cfa => exact nextOp_closed hQ (fetch_push_closed hQ _)
  case DW_OP_deref => exact nextOp_closed hQ (parseOpDeref_closed hQ env)
  case DW_OP_deref_size | DW_OP_const1u | DW_OP_const1s | DW_OP_const2u | DW_OP_const2s |
      DW_OP_const4u | DW_OP_const4s | DW_OP_const8u | DW_OP_const8s | DW_OP_constu |
      DW_OP_consts | DW_OP_lit =>
    exact nextOp_closed hQ (hQ.push _)
  case DW_OP_dup =>
    exact nextOp_closed hQ (hQ.bind hQ.pop fun b => pushTwo_closed hQ b b)
  case DW_OP_drop => exact nextOp_closed hQ (hQ.bind hQ.pop fun _ => hQ.pure _)
  case DW_OP_over | DW_OP_pick => exact nextOp_closed hQ (hQ.pick _)
  case DW_OP_swap => exact nextOp_closed hQ (popTwo_closed hQ fun b c => pushTwo_closed hQ b c)
  case DW_OP_rot =>
    exact nextOp_closed hQ (popThree_closed hQ fun a b c =>
      hQ.bind (hQ.push a) fun _ => pushTwo_closed hQ c b)
  case DW_OP_abs => exact nextOp_closed hQ (pop_push_closed hQ _)
  case DW_OP_neg => exact nextOp_closed hQ (pop_push_closed hQ _)
  case DW_OP_not => exact nextOp_closed hQ (pop_push_closed hQ _)
  case DW_OP_plus_uconst => exact nextOp_closed hQ (pop_push_closed hQ _)
  case DW_OP_and | DW_OP_minus | DW_OP_mul | DW_OP_or | DW_OP_plus | DW_OP_xor =>
    exact nextOp_closed hQ (ubinop_closed hQ _)
  case DW_OP_eq | DW_OP_ge | DW_OP_gt | DW_OP_le | DW_OP_lt | DW_OP_ne =>
    exact nextOp_closed hQ (sbinop_closed hQ _)
  case DW_OP_div => exact nextOp_closed hQ (hdiv rfl)
  case DW_OP_mod => exact nextOp_closed hQ (hmod rfl)
  case DW_OP_shl => exact nextOp_closed hQ (popTwo_closed hQ fun _ _ => hQ.push _)
  case DW_OP_shr => exact nextOp_closed hQ (popTwo_closed hQ fun _ _ => hQ.push _)
  case DW_OP_shra => exact nextOp_closed hQ (parseOpShra_closed hQ)
  case DW_OP_bra =>
    exact hQ.bind (hQ.bind hQ.pop fun _ => hQ.pure _) fun _ => hQ.pure _
  case DW_OP_reg | DW_OP_regx => exact push_result_closed hQ _ _
  case DW_OP_breg n =>
    exact nextOp_closed hQ (hQ.bind (readRegister_closed hQ n) fun _ => hQ.push _)
  case DW_OP_bregx =>
    exact nextOp_closed hQ (hQ.bind hQ.fetch fun _ =>
      hQ.bind (readRegister_closed hQ opd1.toNat) fun _ => hQ.push _)
  case DW_OP_nop => exact nextOp_closed hQ (hQ.pure _)
  case DW_OP_skip | DW_OP_piece | DW_OP_implicit_value | DW_OP_stack_value |
      DW_OP_implicit_pointer =>
    exact hQ.pure _
  all_goals exact hQ.fail _

theorem evalOp_closed {env : ExprEnv} {loc : LocOp} (h : Q _ (parseOpcode env loc)) :
    Q _ (evalOp env loc) :=
  hQ.bind (hQ.orFail h 1) fun _ => hQ.bind (hQ.failIf _ _) fun _ => hQ.pure _

theorem getLocationOp_closed (ops : List (DwRes LocOp)) (i : Nat) : Q _ (getLocationOp ops i) := by
  unfold getLocationOp
  split
  · exact hQ.pure _
  · exact hQ.fail _

theorem scanForward_closed (ops : List (DwRes LocOp)) (offsetforbranch : UWORD)
    (skipBytes : BitVec 16) (rest i : Nat) (newOffset : UWORD) :
    Q _ (scanForward ops offsetforbranch skipBytes rest i newOffset) := by
  induction rest generalizing i newOffset with
  | zero => exact hQ.pure _
  | succ rest ih =>
      unfold scanForward
      split
      · exact hQ.bind (getLocationOp_closed hQ ops (i + 1)) fun loc => ih _ _
      · exact hQ.pure _

theorem scanBackward_closed (ops : List (DwRes LocOp)) (offsetforbranch : UWORD)
    (skipBytes : BitVec 16) (i : Nat) (newOffset : UWORD) :
    Q _ (scanBackward ops offsetforbranch skipBytes i newOffset) := by
  induction i generalizing newOffset with
  | zero => exact hQ.pure _
  | succ i ih =>
      unfold scanBackward
      split
      · exact hQ.bind (getLocationOp_closed hQ ops i) fun loc => ih _
      · exact hQ.pure _

-- What the pass does behind the operation.
theorem evalPass_after_closed (ops : List (DwRes LocOp)) (i : Nat) (loc : LocOp)
    (skipBytes : BitVec 16) :
    Q _ (if skipBytes = 0 then pure (i + 1)
      else if skipBytes.toInt > 0 then
        scanForward ops loc.offsetforbranch skipBytes (ops.length - (i + 1)) i loc.offsetforbranch
      else scanBackward ops loc.offsetforbranch skipBytes i loc.offsetforbranch : ExprM Nat) := by
  split
  · exact hQ.pure _
  · split
    · exact scanForward_closed hQ ops _ _ _ _ _
    · exact scanBackward_closed hQ ops _ _ _ _

theorem searchLocDesc_closed (offset : UWORD) (descs : List (DwRes LocDesc))
    (last : List (DwRes LocOp)) : Q _ (searchLocDesc offset descs last) := by
  induction descs generalizing last with
  | nil => exact hQ.pure _
  | cons desc rest ih =>
      cases desc with
      | noEntry => exact hQ.fail _
      | error => exact hQ.fail _
      | ok desc =>
          unfold searchLocDesc
          split
          · exact hQ.pure _
          · exact ih _

theorem pushInitial_closed (locInfo : LocInfo) : Q _ (pushInitial locInfo) := by
  unfold pushInitial
  split
  · exact pushIgnored_closed hQ _
  · exact hQ.pure _

end

-- What holds of the evaluator holds after every operation if the three ways to the stack
-- keep it.
structure StackInvariant (inv : LocExpr → Prop) : Prop where
  push : ∀ tkn, (pushExprTkn tkn).Preserves inv
  pop : popStackTop.Preserves inv
  pick : ∀ op1, (parseOpPick op1).Preserves inv

theorem StackInvariant.closed (hinv : StackInvariant inv) :
    StackClosed fun α x => Action.Preserves (α := α) inv x where
  pure := .pure
  bind := .bind
  fail := .fail
  failIf c _ code := .failIf c code
  fetch := .fetch
  orFail := .orFail
  attempt := .attempt
  push := hinv.push
  pop := hinv.pop
  pick := hinv.pick

section

variable (hinv : StackInvariant inv)

include hinv

theorem parseOpDiv_preserves : parseOpDiv.Preserves inv := by
  apply popTwo_closed hinv.closed
  intro b c
  split
  · exact .block
  · exact hinv.push _

theorem parseOpMod_preserves : parseOpMod.Preserves inv := by
  apply popTwo_closed hinv.closed
  intro b c
  split
  · exact .block
  · exact pushIgnored_closed hinv.closed _

theorem evalOp_preserves (env : ExprEnv) (loc : LocOp) : (evalOp env loc).Preserves inv :=
  evalOp_closed hinv.closed (parseOpcode_closed hinv.closed env loc
    (fun _ => parseOpDiv_preserves hinv) fun _ => parseOpMod_preserves hinv)

theorem evalPass_preserves (env : ExprEnv) (ops : List (DwRes LocOp)) (i : Nat) :
    (evalPass env ops i).Preserves inv :=
  .bind (getLocationOp_closed hinv.closed ops i) fun loc =>
    .bind (evalOp_preserves hinv env loc) fun skipBytes =>
      evalPass_after_closed hinv.closed ops i loc skipBytes

-- The whole loop, for any operations and however long it goes on.
theorem evalLoop_preserves (env : ExprEnv) (ops : List (DwRes LocOp)) (fuel i : Nat) :
    (evalLoop env ops fuel i).Preserves inv := by
  induction fuel generalizing i with
  | zero =>
      unfold evalLoop
      split
      · exact .block
      · exact .pure _
  | succ fuel ih =>
      unfold evalLoop
      split
      · exact .bind (evalPass_preserves hinv env ops i) ih
      · exact .pure _

theorem evaluateExpr_preserves (env : ExprEnv) (fuel : Nat) (ops : List (DwRes LocOp))
    (index : Nat) : (evaluateExpr env fuel ops index).Preserves inv :=
  .bind (evalLoop_preserves hinv env ops fuel index) fun _ => .orFail hinv.pop 1

theorem getVarLocation_preserves (env : ExprEnv) (fuel : Nat)
    (loclist : DwRes (List (DwRes LocDesc))) :
    (getVarLocation env fuel loclist).Preserves inv := by
  refine Action.Preserves.bind (x := Action.fetch) .fetch fun s => ?_
  refine Action.Preserves.bind (pushInitial_closed hinv.closed s.locInfo) fun _ => ?_
  cases loclist with
  | noEntry => exact .fail _
  | error => exact .fail _
  | ok descs =>
      exact .bind (searchLocDesc_closed hinv.closed _ descs []) fun ops =>
        .orFail (evaluateExpr_preserves hinv env fuel ops 0) 1

end

end VDebugger
