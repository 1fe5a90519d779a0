import VDebugger.LocExpr.Reference

namespace VDebugger

open Machine Reference

variable {α : Type} {locInfo : LocInfo} {s : LocExpr} {stack : Stack}

-- The entries of `op_stack` below the top are the list's, the bottom at index 0.
def Stored (opStack : Int → UWORD) : Stack → Prop
  | [] => True
  | top :: rest => opStack rest.length = top ∧ Stored opStack rest

theorem Stored.write {opStack : Int → UWORD} (h : Stored opStack stack) {index : Int}
    (habove : stack.length ≤ index) (value : UWORD) :
    Stored (fun i => if i = index then value else opStack i) stack := by
  induction stack with
  | nil => trivial
  | cons top rest ih =>
      rw [List.length_cons] at habove
      have hne : ¬(rest.length : Int) = index := by omega
      constructor
      · show (if (rest.length : Int) = index then value else opStack rest.length) = top
        rw [if_neg hne]
        exact h.1
      · exact ih h.2 (by omega)

theorem Stored.get {opStack : Int → UWORD} (h : Stored opStack stack) {index : Nat}
    (hlt : index < stack.length) : opStack ((stack.length : Int) - 1 - index) = stack[index] := by
  induction stack generalizing index with
  | nil => exact absurd hlt (Nat.not_lt_zero index)
  | cons top rest ih =>
      rw [List.length_cons] at hlt ⊢
      cases index with
      | zero =>
          have hbottom : ((rest.length + 1 : Nat) : Int) - 1 - (0 : Nat) = rest.length := by omega
          rw [hbottom]
          exact h.1
      | succ index =>
          have hbelow : ((rest.length + 1 : Nat) : Int) - 1 - ((index + 1 : Nat) : Int)
              = (rest.length : Int) - 1 - index := by omega
          rw [hbelow]
          exact ih h.2 (by omega)

structure Holds (locInfo : LocInfo) (s : LocExpr) (stack : Stack) : Prop where
  info : s.locInfo = locInfo
  top : s.stackTop = stack.length
  size : stack.length ≤ 256
  entries : Stored s.opStack stack

-- The action gives `a` and the stack of the reference, or fails where that has none.
def Agrees (locInfo : LocInfo) (x : ExprM α) (a : α) (s : LocExpr) : Option Stack → Prop
  | some stack => ∃ t, x s = (.ok a, t) ∧ Holds locInfo t stack
  | none => ∃ code t, x s = (.error code, t)

theorem Agrees.bind {β : Type} {x : ExprM α} {a : α} {f : α → ExprM β} {b : β}
    {result : Option Stack} {g : Stack → Option Stack} (hx : Agrees locInfo x a s result)
    (hf : ∀ t stack, Holds locInfo t stack → Agrees locInfo (f a) b t (g stack)) :
    Agrees locInfo (x >>= f) b s (result.bind g) := by
  cases result with
  | none =>
      obtain ⟨code, t, ht⟩ := hx
      exact ⟨code, t, Action.bind_of_error ht f⟩
  | some stack =>
      obtain ⟨t, ht, hholds⟩ := hx
      have hrest := hf t stack hholds
      rw [Option.bind_some]
      unfold Agrees at hrest ⊢
      rw [Action.bind_of_ok ht]
      exact hrest

theorem Holds.agrees_pure (h : Holds locInfo s stack) (a : α) :
    Agrees locInfo (pure a) a s (some stack) := ⟨s, rfl, h⟩

theorem push_agrees (h : Holds locInfo s stack) (tkn : UWORD) :
    Agrees locInfo (pushExprTkn tkn) () s (limit (tkn :: stack)) := by
  have htop := h.top
  have hsize := h.size
  unfold pushExprTkn
  by_cases hfull : stack.length = 256
  · have hat : s.stackTop = EXPR_STACK_SIZE := by
      rw [htop, hfull]
      rfl
    rw [limit_of_lt (by rw [List.length_cons]; omega)]
    refine ⟨ExprErrors.EXPR_STACK_OVERFLOW.code, s, ?_⟩
    rw [Action.bind_of_ok (Action.fetch_apply s), Action.bind_of_error (Action.failIf_of hat _ s)]
  · have hroom : ¬s.stackTop = EXPR_STACK_SIZE := by
      unfold EXPR_STACK_SIZE
      omega
    rw [limit_of_le (by rw [List.length_cons]; omega)]
    refine ⟨{ (writeStack s.stackTop tkn s).2 with stackTop := s.stackTop + 1 }, ?_, ?_⟩
    · rw [Action.bind_of_ok (Action.fetch_apply s),
        Action.bind_of_ok (Action.failIf_of_not hroom _ s)]
      rfl
    · refine ⟨h.info, ?_, by rw [List.length_cons]; omega, ?_, ?_⟩
      · show s.stackTop + 1 = ((tkn :: stack).length : Int)
        rw [List.length_cons]
        omega
      · exact if_pos htop.symm
      · exact h.entries.write (by omega) tkn

-- The push after two pops always has room, so its result does not matter.
theorem pushIgnored_agrees (h : Holds locInfo s stack) (hroom : stack.length < 256)
    (tkn : UWORD) : Agrees locInfo (pushIgnored tkn) () s (limit (tkn :: stack)) := by
  have hpush := push_agrees h tkn
  rw [limit_of_le (by rw [List.length_cons]; omega)] at hpush ⊢
  obtain ⟨t, ht, hholds⟩ := hpush
  refine ⟨t, ?_, hholds⟩
  unfold pushIgnored
  have hattempt : (pushExprTkn tkn).attempt s = (.ok (some ()), t) := by
    simp only [Action.attempt, ht]
  rw [Action.bind_of_ok hattempt]
  rfl

theorem pop_nil (h : Holds locInfo s []) :
    popStackTop s = (.error ExprErrors.EXPR_STACK_UNDERFLOW.code, s) := by
  have hempty : s.stackTop = 0 := h.top
  unfold popStackTop
  rw [Action.bind_of_ok (Action.fetch_apply s), Action.bind_of_error (Action.failIf_of hempty _ s)]

theorem pop_cons {value : UWORD} (h : Holds locInfo s (value :: stack)) :
    ∃ t, popStackTop s = (.ok value, t) ∧ Holds locInfo t stack := by
  have htop := h.top
  have hsize := h.size
  rw [List.length_cons] at htop hsize
  have hne : ¬s.stackTop = 0 := by omega
  have hbelow : s.stackTop - 1 = stack.length := by omega
  have hread : s.opStack (s.stackTop - 1) = value := by
    rw [hbelow]
    exact h.entries.1
  unfold popStackTop
  rw [Action.bind_of_ok (Action.fetch_apply s), Action.bind_of_ok (Action.failIf_of_not hne _ s)]
  refine ⟨{ (readStack (s.stackTop - 1) s).2 with stackTop := s.stackTop - 1 }, ?_, ?_⟩
  · rw [← hread]
    rfl
  · exact ⟨h.info, hbelow, by omega, h.entries.2⟩

def popped (g : UWORD → Stack → Option Stack) : Stack → Option Stack
  | [] => none
  | value :: rest => g value rest

-- A pop before anything else.
theorem pop_agrees {f : UWORD → ExprM α} {a : α} {g : UWORD → Stack → Option Stack}
    (h : Holds locInfo s stack)
    (hf : ∀ value rest t, stack = value :: rest → Holds locInfo t rest →
      Agrees locInfo (f value) a t (g value rest)) :
    Agrees locInfo (popStackTop >>= f) a s (popped g stack) := by
  cases stack with
  | nil => exact ⟨_, s, Action.bind_of_error (pop_nil h) f⟩
  | cons value rest =>
      obtain ⟨t, ht, hrest⟩ := pop_cons h
      have hafter := hf value rest t rfl hrest
      unfold Agrees at hafter ⊢
      rw [Action.bind_of_ok ht]
      exact hafter

theorem popTwo_agrees {f : UWORD → UWORD → ExprM α} {a : α}
    {g : UWORD → UWORD → Stack → Option Stack} (h : Holds locInfo s stack)
    (hf : ∀ b c rest t, stack = b :: c :: rest → Holds locInfo t rest →
      Agrees locInfo (f b c) a t (g b c rest)) :
    Agrees locInfo (popStackTop >>= fun b => popStackTop >>= f b) a s
      (popped (fun b => popped (g b)) stack) := by
  apply pop_agrees h
  intro b rest t heq ht
  apply pop_agrees ht
  intro c rest' u heq' hu
  exact hf b c rest' u (by rw [heq, heq']) hu

theorem unary_agrees (f : UWORD → UWORD) (h : Holds locInfo s stack) :
    Agrees locInfo (popStackTop >>= fun b => pushExprTkn (f b)) () s
      ((unary f stack).bind limit) := by
  have hpop := pop_agrees (g := fun b rest => limit (f b :: rest)) h
    fun b rest t _ ht => push_agrees ht (f b)
  cases stack with
  | nil => exact hpop
  | cons b rest => exact hpop

theorem ubinop_agrees (f : UWORD → UWORD → UWORD) (h : Holds locInfo s stack) :
    Agrees locInfo (ubinop f) () s ((binary f stack).bind limit) := by
  have hsize := h.size
  have hpop := popTwo_agrees (g := fun b c rest => limit (f c b :: rest)) h
    fun b c rest t heq ht => pushIgnored_agrees ht
      (by rw [heq, List.length_cons, List.length_cons] at hsize; omega) (f c b)
  cases stack with
  | nil => exact hpop
  | cons b rest =>
      cases rest with
      | nil => exact hpop
      | cons c rest => exact hpop

theorem sbinop_agrees {f : UWORD → UWORD → Bool} {holds : Int → Int → Bool}
    (hf : ∀ c b, f c b = holds c.toInt b.toInt) (h : Holds locInfo s stack) :
    Agrees locInfo (sbinop f) () s ((comparison holds stack).bind limit) := by
  have hsame : sbinop f = ubinop fun c b => if holds c.toInt b.toInt then 1 else 0 := by
    unfold sbinop ubinop
    simp only [hf]
  rw [hsame]
  exact ubinop_agrees _ h

-- The comparison of the index with the number of entries is one of natural numbers.
theorem parseOpPick_agrees (op1 : UWORD) (h : Holds locInfo s stack) :
    Agrees locInfo (parseOpPick op1) () s ((pick op1.toNat stack).bind limit) := by
  have htop := h.top
  have hsize := h.size
  have hindex : (op1 ≥ BitVec.ofInt 64 s.stackTop) ↔ stack.length ≤ op1.toNat := by
    rw [htop, BitVec.ofInt_natCast, ge_iff_le, BitVec.le_def, BitVec.toNat_ofNat,
      Nat.mod_eq_of_lt (by omega)]
  unfold parseOpPick pick
  by_cases hout : stack.length ≤ op1.toNat
  · rw [List.getElem?_eq_none hout]
    refine ⟨ExprErrors.EXPR_INDEX_OOB.code, s, ?_⟩
    rw [Action.bind_of_ok (Action.fetch_apply s),
      Action.bind_of_error (Action.failIf_of (hindex.mpr hout) _ s)]
  · have hlt : op1.toNat < stack.length := by omega
    have hread : s.opStack (s.stackTop - 1 - op1.toNat) = stack[op1.toNat] := by
      rw [htop]
      exact h.entries.get hlt
    have hpush := push_agrees
      (s := (readStack (s.stackTop - 1 - op1.toNat) s).2) ⟨h.info, htop, hsize, h.entries⟩
      (s.opStack (s.stackTop - 1 - op1.toNat))
    rw [List.getElem?_eq_getElem hlt, ← hread]
    rw [Option.map_some, Option.bind_some]
    unfold Agrees at hpush ⊢
    rw [Action.bind_of_ok (Action.fetch_apply s),
      Action.bind_of_ok (Action.failIf_of_not (fun hge => hout (hindex.mp hge)) _ s)]
    exact hpush

theorem parseOpDeref_agrees (env : ExprEnv) (h : Holds locInfo s stack) :
    Agrees locInfo (parseOpDeref env) () s
      ((match stack with
        | top :: rest => (env.peek top).map fun data => data :: rest
        | [] => none).bind limit) := by
  have hpop : Agrees locInfo (parseOpDeref env) () s
      (popped (fun b rest => ((env.peek b).map fun data => data :: rest).bind limit) stack) := by
    apply pop_agrees h
    intro b rest t _ ht
    cases env.peek b with
    | none => exact ⟨1, t, rfl⟩
    | some data => exact push_agrees ht data
  cases stack with
  | nil => exact hpop
  | cons b rest => exact hpop

theorem push_two_agrees (h : Holds locInfo s stack) (b c : UWORD) :
    Agrees locInfo
      (do
        pushExprTkn b
        pushExprTkn c) () s ((limit (b :: stack)).bind fun rest => limit (c :: rest)) :=
  Agrees.bind (push_agrees h b) fun _ _ ht => push_agrees ht c

theorem parseOpDup_agrees (h : Holds locInfo s stack) :
    Agrees locInfo parseOpDup () s ((pick 0 stack).bind limit) := by
  have hsize := h.size
  have hpop := pop_agrees h fun b rest t _ ht => push_two_agrees ht b b
  cases stack with
  | nil => exact hpop
  | cons b rest =>
      have hlimit : limit (b :: rest) = some (b :: rest) := limit_of_le hsize
      simp only [popped, hlimit] at hpop
      exact hpop

theorem parseOpDrop_agrees (h : Holds locInfo s stack) :
    Agrees locInfo (popStackTop >>= fun _ => pure ()) () s
      ((match stack with
        | _ :: rest => some rest
        | [] => none).bind limit) := by
  have hsize := h.size
  have hpop := pop_agrees (g := fun _ rest => some rest) h fun _ _ _ _ ht => ht.agrees_pure ()
  cases stack with
  | nil => exact hpop
  | cons b rest =>
      rw [List.length_cons] at hsize
      have hlimit : limit rest = some rest := limit_of_le (by omega)
      rw [Option.bind_some, hlimit]
      exact hpop

theorem parseOpSwap_agrees (h : Holds locInfo s stack) :
    Agrees locInfo parseOpSwap () s
      ((match stack with
        | top :: second :: rest => some (second :: top :: rest)
        | _ => none).bind limit) := by
  have hsize := h.size
  have hpop := popTwo_agrees h fun b c rest t _ ht => push_two_agrees ht b c
  match stack with
  | [] => exact hpop
  | [_] => exact hpop
  | b :: c :: rest =>
      simp only [List.length_cons] at hsize
      have hlimit : limit (b :: rest) = some (b :: rest) :=
        limit_of_le (by rw [List.length_cons]; omega)
      simp only [popped, hlimit] at hpop
      exact hpop

theorem parseOpRot_agrees (h : Holds locInfo s stack) :
    Agrees locInfo parseOpRot () s
      ((match stack with
        | top :: second :: third :: rest => some (second :: third :: top :: rest)
        | _ => none).bind limit) := by
  have hsize := h.size
  have hpop : Agrees locInfo parseOpRot () s
      (popped (fun a => popped fun b => popped fun c rest =>
        (limit (a :: rest)).bind fun rest => (limit (c :: rest)).bind fun rest =>
          limit (b :: rest)) stack) := by
    apply pop_agrees h
    intro a rest t _ ht
    apply popTwo_agrees ht
    intro b c rest u _ hu
    exact Agrees.bind (push_agrees hu a) fun _ _ hv => push_two_agrees hv c b
  match stack with
  | [] => exact hpop
  | [_] => exact hpop
  | [_, _] => exact hpop
  | a :: b :: c :: rest =>
      simp only [List.length_cons] at hsize
      have hone : limit (a :: rest) = some (a :: rest) :=
        limit_of_le (by rw [List.length_cons]; omega)
      have htwo : limit (c :: a :: rest) = some (c :: a :: rest) :=
        limit_of_le (by simp only [List.length_cons]; omega)
      simp only [popped, hone, Option.bind_some, htwo] at hpop
      exact hpop

theorem abs_eq (b : UWORD) :
    BitVec.ofNat 64 b.toInt.natAbs = if b.toInt < 0 then -b else b := by
  rw [← BitVec.ofInt_natCast]
  split
  · have habs : (b.toInt.natAbs : Int) = -b.toInt := by omega
    rw [habs, BitVec.ofInt_neg, BitVec.ofInt_toInt]
  · have habs : (b.toInt.natAbs : Int) = b.toInt := by omega
    rw [habs, BitVec.ofInt_toInt]

theorem nextOp_agrees {x : ExprM Unit} {result : Option Stack}
    (h : Agrees locInfo x () s result) :
    Agrees locInfo (nextOp x) (DwExprAction.NEXT_OP.code, 0) s result := by
  have hbind := Agrees.bind (f := fun _ => pure (DwExprAction.NEXT_OP.code, (0 : BitVec 16))) h
    fun _ _ ht => ht.agrees_pure (DwExprAction.NEXT_OP.code, 0)
  rw [Option.bind_fun_some] at hbind
  exact hbind

theorem push_info_agrees (f : LocInfo → UWORD) (h : Holds locInfo s stack) :
    Agrees locInfo (Action.fetch >>= fun s => pushExprTkn (f s.locInfo)) () s
      (limit (f locInfo :: stack)) := by
  obtain rfl := h.info
  exact push_agrees h (f s.locInfo)

theorem comparison_agrees (f : UWORD → UWORD → Bool) (holds : Int → Int → Bool)
    (h : Holds locInfo s stack) (hf : ∀ c b, f c b = holds c.toInt b.toInt) :
    Agrees locInfo (nextOp (sbinop f)) (DwExprAction.NEXT_OP.code, 0) s
      ((comparison holds stack).bind limit) := nextOp_agrees (sbinop_agrees hf h)

theorem toInt_eq (c b : UWORD) : (c == b) = decide (c.toInt = b.toInt) := by
  rw [beq_eq_decide]
  exact decide_eq_decide.mpr BitVec.toInt_inj.symm

theorem parseOpcode_agrees (env : ExprEnv) (loc : LocOp) (hline : loc.op.straightLine = true)
    (hpiece : loc.op ≠ .DW_OP_piece) (h : Holds locInfo s stack) :
    ∃ res, (res = DwExprAction.NEXT_OP.code ∨ res = DwExprAction.RESULT_VALUE.code) ∧
      Agrees locInfo (parseOpcode env loc) (res, 0) s (step env.peek locInfo loc stack) := by
  have hkept : limit stack = some stack := limit_of_le h.size
  obtain ⟨op, opd1, opd2, opd3, offset⟩ := loc
  by_cases hvalue : op = .DW_OP_stack_value
  · subst op
    have hstep : step env.peek locInfo ⟨.DW_OP_stack_value, opd1, opd2, opd3, offset⟩ stack
        = some stack := hkept
    rw [hstep]
    exact ⟨_, Or.inr rfl, h.agrees_pure _⟩
  refine ⟨_, Or.inl rfl, ?_⟩
  cases op
  case DW_OP_stack_value => exact absurd rfl hvalue
  case DW_OP_piece => exact absurd rfl hpiece
  case DW_OP_addr => exact nextOp_agrees (push_info_agrees (fun info => opd1 + info.loadAddress) h)
  case DW_OP_fbreg => exact nextOp_agrees (push_info_agrees (fun info => info.frameBase + opd1) h)
  case DW_OP_push_object_address =>
    exact nextOp_agrees (push_info_agrees (fun info => info.objAddr) h)
  case DW_OP_call_frame_cfa => exact nextOp_agrees (push_info_agrees (fun info => info.callerSp) h)
  case DW_OP_const1u | DW_OP_const1s | DW_OP_const2u | DW_OP_const2s | DW_OP_const4u |
      DW_OP_const4s | DW_OP_const8u | DW_OP_const8s | DW_OP_constu | DW_OP_consts | DW_OP_lit =>
    exact nextOp_agrees (push_agrees h _)
  case DW_OP_dup => exact nextOp_agrees (parseOpDup_agrees h)
  case DW_OP_drop => exact nextOp_agrees (parseOpDrop_agrees h)
  case DW_OP_over => exact nextOp_agrees (parseOpPick_agrees 1 h)
  case DW_OP_pick => exact nextOp_agrees (parseOpPick_agrees opd1 h)
  case DW_OP_swap => exact nextOp_agrees (parseOpSwap_agrees h)
  case DW_OP_rot => exact nextOp_agrees (parseOpRot_agrees h)
  case DW_OP_deref => exact nextOp_agrees (parseOpDeref_agrees env h)
  case DW_OP_abs =>
    have hunary := unary_agrees (fun b => BitVec.ofNat 64 b.toInt.natAbs) h
    simp only [abs_eq] at hunary
    refine nextOp_agrees (x := parseOpAbs) ?_
    simp only [step, operation, abs_eq]
    exact hunary
  case DW_OP_neg =>
    have hunary := unary_agrees (fun b => BitVec.ofInt 64 (-b.toInt)) h
    simp only [BitVec.ofInt_neg, BitVec.ofInt_toInt] at hunary
    refine nextOp_agrees (x := popStackTop >>= fun b => pushExprTkn (-b)) ?_
    simp only [step, operation, BitVec.ofInt_neg, BitVec.ofInt_toInt]
    exact hunary
  case DW_OP_not => exact nextOp_agrees (unary_agrees _ h)
  case DW_OP_plus_uconst => exact nextOp_agrees (unary_agrees _ h)
  case DW_OP_and | DW_OP_minus | DW_OP_mul | DW_OP_or | DW_OP_plus | DW_OP_xor =>
    exact nextOp_agrees (ubinop_agrees _ h)
  case DW_OP_eq =>
    exact comparison_agrees (fun c b => c == b) (fun c b => decide (c = b)) h toInt_eq
  case DW_OP_ne =>
    have hne (c b : UWORD) : (c != b) = decide (c.toInt ≠ b.toInt) := by
      rw [bne, toInt_eq, decide_not]
    exact comparison_agrees (fun c b => c != b) (fun c b => decide (c ≠ b)) h hne
  case DW_OP_ge =>
    exact comparison_agrees (fun c b => b.sle c) (fun c b => decide (c ≥ b)) h fun _ _ => rfl
  case DW_OP_gt =>
    exact comparison_agrees (fun c b => b.slt c) (fun c b => decide (c > b)) h fun _ _ => rfl
  case DW_OP_le =>
    exact comparison_agrees (fun c b => c.sle b) (fun c b => decide (c ≤ b)) h fun _ _ => rfl
  case DW_OP_lt =>
    exact comparison_agrees (fun c b => c.slt b) (fun c b => decide (c < b)) h fun _ _ => rfl
  case DW_OP_nop =>
    have hstep : step env.peek locInfo ⟨.DW_OP_nop, opd1, opd2, opd3, offset⟩ stack
        = some stack := hkept
    rw [hstep]
    exact h.agrees_pure _
  case DW_OP_deref_size | DW_OP_div | DW_OP_mod | DW_OP_shl | DW_OP_shr | DW_OP_shra |
      DW_OP_skip | DW_OP_bra | DW_OP_reg | DW_OP_breg | DW_OP_regx | DW_OP_bregx |
      DW_OP_implicit_value | DW_OP_implicit_pointer =>
    exact absurd hline Bool.false_ne_true
  all_goals exact ⟨_, s, rfl⟩

-- The `switch` goes on with the next operation where the reference does.
theorem evalOp_agrees (env : ExprEnv) (loc : LocOp) (hline : loc.op.straightLine = true)
    (h : Holds locInfo s stack) :
    Agrees locInfo (evalOp env loc) 0 s (step env.peek locInfo loc stack) := by
  by_cases hpiece : loc.op = .DW_OP_piece
  · have hop : parseOpcode env loc s
        = (.ok (DwExprAction.PARSE_PIECE.code, loc.opd1.setWidth 16), s) := by
      simp only [parseOpcode, hpiece]
      rfl
    have hstep : step env.peek locInfo loc stack = none := by
      simp only [step, operation, hpiece, Option.bind_none]
    rw [hstep]
    refine ⟨1, s, ?_⟩
    unfold evalOp
    rw [Action.bind_of_ok (Action.orFail_eq_ok.mpr hop)]
    exact Action.bind_of_error (Action.failIf_of (by decide) 1 s) _
  · obtain ⟨res, hres, hop⟩ := parseOpcode_agrees env loc hline hpiece h
    have hpass : ¬(res ≠ DwExprAction.NEXT_OP.code ∧
        (res = DwExprAction.PARSE_PIECE.code ∨ ¬res < 0)) := by
      cases hres with
      | inl hres =>
          subst res
          decide
      | inr hres =>
          subst res
          decide
    unfold evalOp
    cases hstep : step env.peek locInfo loc stack with
    | none =>
        rw [hstep] at hop
        obtain ⟨code, t, ht⟩ := hop
        exact ⟨1, t, Action.bind_of_error (Action.orFail_of_error ht 1) _⟩
    | some rest =>
        rw [hstep] at hop
        obtain ⟨t, ht, hrest⟩ := hop
        refine ⟨t, ?_, hrest⟩
        rw [Action.bind_of_ok (Action.orFail_eq_ok.mpr ht)]
        exact Action.bind_of_ok (Action.failIf_of_not hpass 1 t) _

theorem evalPass_agrees (env : ExprEnv) {ops : List LocOp} {i : Nat} {loc : LocOp}
    (hloc : ops[i]? = some loc) (hline : loc.op.straightLine = true)
    (h : Holds locInfo s stack) :
    Agrees locInfo (evalPass env (ops.map .ok) i) (i + 1) s (step env.peek locInfo loc stack) := by
  have hget : getLocationOp (ops.map .ok) i s = (.ok loc, s) :=
    getLocationOp_ok (by rw [List.getElem?_map, hloc, Option.map_some]) s
  have hop := evalOp_agrees env loc hline h
  unfold evalPass
  cases hstep : step env.peek locInfo loc stack with
  | none =>
      rw [hstep] at hop
      obtain ⟨code, t, ht⟩ := hop
      exact ⟨code, t, by rw [Action.bind_of_ok hget, Action.bind_of_error ht]⟩
  | some rest =>
      rw [hstep] at hop
      obtain ⟨t, ht, hrest⟩ := hop
      exact ⟨t, by rw [Action.bind_of_ok hget, Action.bind_of_ok ht]; rfl, hrest⟩

-- One pass for each operation that is left.
theorem evalLoop_agrees (env : ExprEnv) (before rest : List LocOp)
    (hline : ∀ loc ∈ rest, loc.op.straightLine = true) {fuel : Nat} (hfuel : rest.length ≤ fuel)
    (h : Holds locInfo s stack) :
    Agrees locInfo (evalLoop env ((before ++ rest).map .ok) fuel before.length) () s
      (run env.peek locInfo rest stack) := by
  induction rest generalizing before fuel s stack with
  | nil =>
      have hend : ¬before.length < ((before ++ []).map (DwRes.ok (α := LocOp))).length := by simp
      rw [evalLoop_end env fuel hend]
      exact h.agrees_pure ()
  | cons loc rest ih =>
      rw [List.length_cons] at hfuel
      obtain ⟨fuel, rfl⟩ : ∃ n, fuel = n + 1 := ⟨fuel - 1, by omega⟩
      have hmore : before.length < ((before ++ loc :: rest).map (DwRes.ok (α := LocOp))).length := by
        simp
      have hloc : (before ++ loc :: rest)[before.length]? = some loc := by simp
      have hpass := evalPass_agrees env hloc (hline loc List.mem_cons_self) h
      have hrest (t : LocExpr) (after : Stack) (ht : Holds locInfo t after) :
          Agrees locInfo (evalLoop env ((before ++ loc :: rest).map .ok) fuel (before.length + 1))
            () t (run env.peek locInfo rest after) := by
        have hloop := ih (before ++ [loc]) (fun loc hmem => hline loc (List.mem_cons_of_mem _ hmem))
          (show rest.length ≤ fuel by omega) ht
        rw [List.append_assoc, List.length_append, List.length_singleton] at hloop
        exact hloop
      rw [evalLoop_more env fuel hmore]
      exact Agrees.bind hpass hrest

-- A run of the reference is a run of the evaluator, and the other way round.
theorem straight_line_value (env : ExprEnv) (ops : List LocOp)
    (hline : ∀ loc ∈ ops, loc.op.straightLine = true) (s : LocExpr) (hempty : s.stackTop = 0)
    (fuel : Nat) (hfuel : ops.length ≤ fuel) (v : UWORD) :
    (evaluateExpr env fuel (ops.map .ok) 0 s).1 = .ok v ↔
      ∃ rest, run env.peek s.locInfo ops [] = some (v :: rest) := by
  have hstart : Holds s.locInfo s [] := ⟨rfl, hempty, Nat.zero_le 256, trivial⟩
  have hloop := evalLoop_agrees env [] ops hline hfuel hstart
  rw [List.nil_append, List.length_nil] at hloop
  unfold evaluateExpr
  cases hrun : run env.peek s.locInfo ops [] with
  | none =>
      rw [hrun] at hloop
      obtain ⟨code, t, ht⟩ := hloop
      rw [Action.bind_of_error ht]
      simp
  | some stack =>
      rw [hrun] at hloop
      obtain ⟨t, ht, hend⟩ := hloop
      rw [Action.bind_of_ok ht]
      cases stack with
      | nil =>
          rw [Action.orFail_of_error (pop_nil hend)]
          simp
      | cons top rest =>
          obtain ⟨u, hpop, _⟩ := pop_cons hend
          rw [Action.orFail_eq_ok.mpr hpop]
          simp

theorem straight_line_local :
    (evaluateExpr ⟨fun a => if a = 0x6ff8 then some 12 else none, fun _ => 0⟩ 5
      ([⟨.DW_OP_fbreg, -8, 0, 0, 0⟩, ⟨.DW_OP_deref, 0, 0, 0, 2⟩, ⟨.DW_OP_lit 5, 0, 0, 0, 3⟩,
        ⟨.DW_OP_minus, 0, 0, 0, 4⟩, ⟨.DW_OP_stack_value, 0, 0, 0, 5⟩].map .ok) 0
      (LocInfo.freshExpr { frameBase := 0x7000 })).1 = .ok 7 :=
  (straight_line_value _ _ (by decide) _ rfl 5 (by decide) 7).mpr ⟨[], by decide⟩

end VDebugger
