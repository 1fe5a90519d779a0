import VDebugger.Machine.Action
import VDebugger.DwarfInfo

namespace VDebugger

open Machine

-- So many operations DW_OP_lit, DW_OP_reg and DW_OP_breg there are.
instance operationRange : NeZero 32 := ⟨by decide⟩

inductive DwOp where
  | DW_OP_addr | DW_OP_deref | DW_OP_deref_size
  | DW_OP_const1u | DW_OP_const1s | DW_OP_const2u | DW_OP_const2s | DW_OP_const4u | DW_OP_const4s
  | DW_OP_const8u | DW_OP_const8s | DW_OP_constu | DW_OP_consts
  | DW_OP_dup | DW_OP_drop | DW_OP_over | DW_OP_pick | DW_OP_swap | DW_OP_rot
  | DW_OP_xderef | DW_OP_xderef_size | DW_OP_xderef_type
  | DW_OP_abs | DW_OP_and | DW_OP_div | DW_OP_minus | DW_OP_mod | DW_OP_mul | DW_OP_neg | DW_OP_not
  | DW_OP_or | DW_OP_plus | DW_OP_plus_uconst | DW_OP_shl | DW_OP_shr | DW_OP_shra | DW_OP_xor
  | DW_OP_skip | DW_OP_bra
  | DW_OP_eq | DW_OP_ge | DW_OP_gt | DW_OP_le | DW_OP_lt | DW_OP_ne
  | DW_OP_lit (n : Fin 32) | DW_OP_reg (n : Fin 32) | DW_OP_breg (n : Fin 32)
  | DW_OP_regx | DW_OP_fbreg | DW_OP_bregx | DW_OP_piece | DW_OP_nop
  | DW_OP_push_object_address | DW_OP_call_frame_cfa
  | DW_OP_implicit_value | DW_OP_stack_value | DW_OP_implicit_pointer
  | DW_OP_addrx | DW_OP_constx | DW_OP_entry_value
  | DW_OP_bit_piece | DW_OP_call2 | DW_OP_call4 | DW_OP_call_ref | DW_OP_form_tls_address
  | DW_OP_const_type | DW_OP_regval_type | DW_OP_deref_type | DW_OP_convert | DW_OP_reinterpret
  | other (code : Nat)
  deriving DecidableEq, Repr

-- What `dwarf_get_location_op_value_c` gives for one operation.
structure LocOp where
  op : DwOp
  opd1 : UWORD := 0
  opd2 : UWORD := 0
  opd3 : UWORD := 0
  offsetforbranch : UWORD := 0
  deriving DecidableEq, Repr

def EXPR_STACK_SIZE : Int := 256

inductive ExprErrors where
  | EXPR_INDEX_OOB
  | EXPR_STACK_UNDERFLOW
  | EXPR_STACK_OVERFLOW
  | UNIMPLEMENTED_OP_CODE
  | INVALID_OPCODE
  deriving DecidableEq, Repr

def ExprErrors.code : ExprErrors → Int
  | .EXPR_INDEX_OOB => 0xff
  | .EXPR_STACK_UNDERFLOW => 0x100
  | .EXPR_STACK_OVERFLOW => 0x101
  | .UNIMPLEMENTED_OP_CODE => 0x102
  | .INVALID_OPCODE => 0x103

inductive DwExprAction where
  | RESULT_REGISTER
  | RESULT_VALUE
  | RESULT_IMPLICIT_VALUE
  | RESULT_IMPLICIT_POINTER
  | NEXT_OP
  | PARSE_PIECE
  deriving DecidableEq, Repr

def DwExprAction.code : DwExprAction → Int
  | .RESULT_REGISTER => -1
  | .RESULT_VALUE => -3
  | .RESULT_IMPLICIT_VALUE => -4
  | .RESULT_IMPLICIT_POINTER => -5
  | .NEXT_OP => 0
  | .PARSE_PIECE => 1

structure LocInfo where
  loadAddress : UWORD := 0
  calleeRegsCurValue : RegsStruct := {}
  callerSp : UWORD := 0
  callerIp : UWORD := 0
  frameBase : UWORD := 0
  objAddr : UWORD := 0
  inital : UWORD := 0
  hInitial : UWORD := 0

-- One read or write of `op_stack`: whether the entry had been written by then, and
-- `stack_top` at the time.
structure Access where
  write : Bool
  index : Int
  written : Bool
  top : Int
  deriving DecidableEq, Repr

structure LocExpr where
  locInfo : LocInfo
  opStack : Int → UWORD
  stackTop : Int
  -- The entries written in this evaluation, and every access so far, the latest first.
  -- No modelled function reads them.
  written : Int → Bool
  accesses : List Access

-- What the evaluator cannot see the inside of: `__ptrace_peek_data` on the stopped
-- debugee, `none` where the read fails, and what is read from an object that was never
-- written, after so many accesses to the stack.
structure ExprEnv where
  peek : UWORD → Option UWORD
  undef : Nat → UWORD

abbrev ExprM (α : Type) : Type := Action LocExpr α

def readStack (index : Int) : ExprM UWORD := fun s =>
  (.ok (s.opStack index),
    { s with accesses := ⟨false, index, s.written index, s.stackTop⟩ :: s.accesses })

def writeStack (index : Int) (value : UWORD) : ExprM Unit := fun s =>
  (.ok (),
    { s with
      opStack := fun i => if i = index then value else s.opStack i
      written := fun i => i = index || s.written i
      accesses := ⟨true, index, s.written index, s.stackTop⟩ :: s.accesses })

def pushExprTkn (tkn : UWORD) : ExprM Unit := do
  let s ← Action.fetch
  Action.failIf (s.stackTop = EXPR_STACK_SIZE) ExprErrors.EXPR_STACK_OVERFLOW.code
  writeStack s.stackTop tkn
  Action.change fun s => { s with stackTop := s.stackTop + 1 }

def popStackTop : ExprM UWORD := do
  let s ← Action.fetch
  Action.failIf (s.stackTop = 0) ExprErrors.EXPR_STACK_UNDERFLOW.code
  let data ← readStack (s.stackTop - 1)
  Action.change fun s => { s with stackTop := s.stackTop - 1 }
  pure data

-- A push whose result is not looked at.
def pushIgnored (tkn : UWORD) : ExprM Unit := do
  let _ ← (pushExprTkn tkn).attempt
  pure ()

def ubinop (f : UWORD → UWORD → UWORD) : ExprM Unit := do
  let b ← popStackTop
  let c ← popStackTop
  pushIgnored (f c b)

def sbinop (f : UWORD → UWORD → Bool) : ExprM Unit := do
  let b ← popStackTop
  let c ← popStackTop
  pushIgnored (if f c b then 1 else 0)

def parseOpAddr (op1 : UWORD) : ExprM Unit := do
  let s ← Action.fetch
  pushExprTkn (op1 + s.locInfo.loadAddress)

-- `size` is that of a UWORD at the only call.
def parseOpDeref (env : ExprEnv) : ExprM Unit := do
  let b ← popStackTop
  match env.peek b with
  | none => Action.fail 1
  | some data => pushExprTkn data

def parseOpDup : ExprM Unit := do
  let b ← popStackTop
  pushExprTkn b
  pushExprTkn b

-- `op1 >= stack_top` compares as unsigned 64-bit numbers.
def parseOpPick (op1 : UWORD) : ExprM Unit := do
  let s ← Action.fetch
  Action.failIf (op1 ≥ BitVec.ofInt 64 s.stackTop) ExprErrors.EXPR_INDEX_OOB.code
  let value ← readStack (s.stackTop - 1 - op1.toNat)
  pushExprTkn value

def parseOpSwap : ExprM Unit := do
  let b ← popStackTop
  let c ← popStackTop
  pushExprTkn b
  pushExprTkn c

def parseOpRot : ExprM Unit := do
  let a ← popStackTop
  let b ← popStackTop
  let c ← popStackTop
  pushExprTkn a
  pushExprTkn c
  pushExprTkn b

def parseOpAbs : ExprM Unit := do
  let b ← popStackTop
  pushExprTkn (if b.toInt < 0 then -b else b)

def parseOpPlusUconst (op1 : UWORD) : ExprM Unit := do
  let b ← popStackTop
  pushExprTkn (b + op1)

-- A division that has no result ends the debugger with a signal.
def parseOpDiv : ExprM Unit := do
  let b ← popStackTop
  let c ← popStackTop
  if b = 0 ∨ c = BitVec.intMin 64 ∧ b = -1 then Action.block else pushExprTkn (c.sdiv b)

def parseOpMod : ExprM Unit := do
  let b ← popStackTop
  let c ← popStackTop
  if b = 0 then Action.block else pushIgnored (c % b)

def parseOpShl : ExprM Unit := do
  let b ← popStackTop
  let c ← popStackTop
  pushExprTkn (if b ≥ 64 then 0 else c >>> b.toNat)

def parseOpShr : ExprM Unit := do
  let b ← popStackTop
  let c ← popStackTop
  pushExprTkn (if b ≥ 64 then 0 else c <<< b.toNat)

def parseOpShra : ExprM Unit := do
  let b ← popStackTop
  let c ← popStackTop
  if b ≥ 64 then pushExprTkn 0
  else if c.toInt < 0 then pushExprTkn (-((-c) >>> b.toNat))
  else pushExprTkn (c >>> b.toNat)

def parseOpBra (op1 : UWORD) : ExprM (BitVec 16) := do
  let b ← popStackTop
  pure (if b ≠ 0 then op1.setWidth 16 else 0)

-- `op - DW_OP_breg0` and the operand of `bregx` are taken for a `REGISTER`, an enum of
-- 32 bits.
def readRegister (reg : Nat) : ExprM UWORD := do
  let s ← Action.fetch
  match getRegister (reg % 2 ^ 32) with
  | none => Action.fail 1
  | some reg => pure (s.locInfo.calleeRegsCurValue.get reg)

def nextOp (x : ExprM Unit) : ExprM (Int × BitVec 16) := do
  x
  pure (DwExprAction.NEXT_OP.code, 0)

-- The result of the function and what it leaves in `*bytes`. An error code is an error
-- of the action.
def parseOpcode (env : ExprEnv) (loc : LocOp) : ExprM (Int × BitVec 16) :=
  match loc.op with
  | .DW_OP_addr => nextOp (parseOpAddr loc.opd1)
  | .DW_OP_deref => nextOp (parseOpDeref env)
  -- This label has no statement of its own and falls into the next ones.
  | .DW_OP_deref_size
  | .DW_OP_const1u | .DW_OP_const1s | .DW_OP_const2u | .DW_OP_const2s | .DW_OP_const4u
  | .DW_OP_const4s | .DW_OP_const8u | .DW_OP_const8s | .DW_OP_constu | .DW_OP_consts =>
      nextOp (pushExprTkn loc.opd1)
  | .DW_OP_dup => nextOp parseOpDup
  | .DW_OP_drop => nextOp do
      let _ ← popStackTop
      pure ()
  | .DW_OP_over => nextOp (parseOpPick 1)
  | .DW_OP_pick => nextOp (parseOpPick loc.opd1)
  | .DW_OP_swap => nextOp parseOpSwap
  | .DW_OP_rot => nextOp parseOpRot
  | .DW_OP_xderef | .DW_OP_xderef_size | .DW_OP_xderef_type =>
      Action.fail ExprErrors.UNIMPLEMENTED_OP_CODE.code
  | .DW_OP_abs => nextOp parseOpAbs
  | .DW_OP_and => nextOp (ubinop fun c b => c &&& b)
  | .DW_OP_div => nextOp parseOpDiv
  | .DW_OP_minus => nextOp (ubinop fun c b => c - b)
  | .DW_OP_mod => nextOp parseOpMod
  | .DW_OP_mul => nextOp (ubinop fun c b => c * b)
  | .DW_OP_neg => nextOp do
      let b ← popStackTop
      pushExprTkn (-b)
  | .DW_OP_not => nextOp do
      let b ← popStackTop
      pushExprTkn (~~~b)
  | .DW_OP_or => nextOp (ubinop fun c b => c ||| b)
  | .DW_OP_plus => nextOp (ubinop fun c b => c + b)
  | .DW_OP_plus_uconst => nextOp (parseOpPlusUconst loc.opd1)
  | .DW_OP_shl => nextOp parseOpShl
  | .DW_OP_shr => nextOp parseOpShr
  | .DW_OP_shra => nextOp parseOpShra
  | .DW_OP_xor => nextOp (ubinop fun c b => c ^^^ b)
  | .DW_OP_skip => pure (DwExprAction.NEXT_OP.code, loc.opd1.setWidth 16)
  | .DW_OP_bra => do
      let bytes ← parseOpBra loc.opd1
      pure (DwExprAction.NEXT_OP.code, bytes)
  | .DW_OP_eq => nextOp (sbinop fun c b => c == b)
  | .DW_OP_ge => nextOp (sbinop fun c b => b.sle c)
  | .DW_OP_gt => nextOp (sbinop fun c b => b.slt c)
  | .DW_OP_le => nextOp (sbinop fun c b => c.sle b)
  | .DW_OP_lt => nextOp (sbinop fun c b => c.slt b)
  | .DW_OP_ne => nextOp (sbinop fun c b => c != b)
  | .DW_OP_lit n => nextOp (pushExprTkn (BitVec.ofNat 64 n))
  | .DW_OP_reg n => do
      pushExprTkn (BitVec.ofNat 64 n)
      pure (DwExprAction.RESULT_REGISTER.code, 0)
  | .DW_OP_breg n => nextOp do
      let value ← readRegister n
      pushExprTkn value
  | .DW_OP_regx => do
      pushExprTkn loc.opd1
      pure (DwExprAction.RESULT_REGISTER.code, 0)
  | .DW_OP_fbreg => nextOp do
      let s ← Action.fetch
      pushExprTkn (s.locInfo.frameBase + loc.opd1)
  -- `b.u +=` adds to a variable that has no value yet.
  | .DW_OP_bregx => nextOp do
      let s ← Action.fetch
      let value ← readRegister loc.opd1.toNat
      pushExprTkn (env.undef s.accesses.length + (value + loc.opd2))
  | .DW_OP_piece => pure (DwExprAction.PARSE_PIECE.code, loc.opd1.setWidth 16)
  | .DW_OP_nop => nextOp (pure ())
  | .DW_OP_push_object_address => nextOp do
      let s ← Action.fetch
      pushExprTkn s.locInfo.objAddr
  | .DW_OP_call_frame_cfa => nextOp do
      let s ← Action.fetch
      pushExprTkn s.locInfo.callerSp
  | .DW_OP_implicit_value => pure (DwExprAction.RESULT_IMPLICIT_VALUE.code, 0)
  | .DW_OP_stack_value => pure (DwExprAction.RESULT_VALUE.code, 0)
  | .DW_OP_implicit_pointer => pure (DwExprAction.RESULT_IMPLICIT_POINTER.code, 0)
  | .DW_OP_addrx | .DW_OP_constx | .DW_OP_entry_value =>
      Action.fail ExprErrors.UNIMPLEMENTED_OP_CODE.code
  | .DW_OP_bit_piece | .DW_OP_call2 | .DW_OP_call4 | .DW_OP_call_ref | .DW_OP_form_tls_address
  | .DW_OP_const_type | .DW_OP_regval_type | .DW_OP_deref_type | .DW_OP_convert
  | .DW_OP_reinterpret =>
      Action.fail ExprErrors.UNIMPLEMENTED_OP_CODE.code
  | .other _ => Action.fail ExprErrors.INVALID_OPCODE.code

-- `dwarf_get_location_op_value_c`
def getLocationOp (ops : List (DwRes LocOp)) (i : Nat) : ExprM LocOp :=
  match ops[i]? with
  | some (.ok loc) => pure loc
  | _ => Action.fail 1

theorem getLocationOp_ok {ops : List (DwRes LocOp)} {i : Nat} {loc : LocOp}
    (h : ops[i]? = some (.ok loc)) (s : LocExpr) : getLocationOp ops i s = (.ok loc, s) := by
  simp only [getLocationOp, h]
  rfl

-- The call of `parse_opcode` and the `switch` on its result. No error code is negative.
def evalOp (env : ExprEnv) (loc : LocOp) : ExprM (BitVec 16) := do
  let (res, skipBytes) ← (parseOpcode env loc).orFail 1
  Action.failIf (res ≠ DwExprAction.NEXT_OP.code ∧
    (res = DwExprAction.PARSE_PIECE.code ∨ ¬res < 0)) 1
  pure skipBytes

-- The scan of a branch forward, with so many operations behind `i`. `skip_bytes` is
-- converted to an unsigned 64-bit number in the comparison, in both scans.
def scanForward (ops : List (DwRes LocOp)) (offsetforbranch : UWORD) (skipBytes : BitVec 16) :
    Nat → Nat → UWORD → ExprM Nat
  | 0, i, _ => pure i
  | rest + 1, i, newOffset =>
      if newOffset - (offsetforbranch + 2) < skipBytes.signExtend 64 then do
        let loc ← getLocationOp ops (i + 1)
        scanForward ops offsetforbranch skipBytes rest (i + 1) loc.offsetforbranch
      else pure i

def scanBackward (ops : List (DwRes LocOp)) (offsetforbranch : UWORD) (skipBytes : BitVec 16) :
    Nat → UWORD → ExprM Nat
  | 0, _ => pure 0
  | i + 1, newOffset =>
      if newOffset - (offsetforbranch + 2) > skipBytes.signExtend 64 then do
        let loc ← getLocationOp ops i
        scanBackward ops offsetforbranch skipBytes i loc.offsetforbranch
      else pure (i + 1)

-- The body of the loop of `evaluate_expr`: the index it goes on with.
def evalPass (env : ExprEnv) (ops : List (DwRes LocOp)) (i : Nat) : ExprM Nat := do
  let loc ← getLocationOp ops i
  let skipBytes ← evalOp env loc
  if skipBytes = 0 then pure (i + 1)
  else if skipBytes.toInt > 0 then
    scanForward ops loc.offsetforbranch skipBytes (ops.length - (i + 1)) i loc.offsetforbranch
  else scanBackward ops loc.offsetforbranch skipBytes i loc.offsetforbranch

-- The loop, observed for at most so many passes.
def evalLoop (env : ExprEnv) (ops : List (DwRes LocOp)) : Nat → Nat → ExprM Unit
  | 0, i => if i < ops.length then Action.block else pure ()
  | fuel + 1, i =>
      if i < ops.length then do
        let next ← evalPass env ops i
        evalLoop env ops fuel next
      else pure ()

theorem evalLoop_more (env : ExprEnv) {ops : List (DwRes LocOp)} (fuel : Nat) {i : Nat}
    (h : i < ops.length) :
    evalLoop env ops (fuel + 1) i = evalPass env ops i >>= evalLoop env ops fuel := if_pos h

theorem evalLoop_end (env : ExprEnv) {ops : List (DwRes LocOp)} (fuel : Nat) {i : Nat}
    (h : ¬i < ops.length) : evalLoop env ops fuel i = pure () := by
  cases fuel with
  | zero => exact if_neg h
  | succ fuel => exact if_neg h

-- `res` is the result of the pop when it comes to the last `switch`, so the top of the
-- stack is always taken for the value itself.
def evaluateExpr (env : ExprEnv) (fuel : Nat) (ops : List (DwRes LocOp)) (index : Nat) :
    ExprM UWORD := do
  evalLoop env ops fuel index
  popStackTop.orFail 1

-- `Loc_Expr loc_expr = {.loc_info = loc_info};`
def LocInfo.freshExpr (locInfo : LocInfo) : LocExpr where
  locInfo
  opStack _ := 0
  stackTop := 0
  written _ := false
  accesses := []

-- One entry of a location list.
structure LocDesc where
  lopc : UWORD
  hipc : UWORD
  ops : List (DwRes LocOp)

-- The operations of the first entry for the offset of the pc, else of the last entry.
def searchLocDesc (offset : UWORD) :
    List (DwRes LocDesc) → List (DwRes LocOp) → ExprM (List (DwRes LocOp))
  | [], last => pure last
  | .ok desc :: rest, _ =>
      if desc.lopc ≤ offset ∧ desc.hipc ≥ offset then pure desc.ops
      else searchLocDesc offset rest desc.ops
  | _ :: _, _ => Action.fail 1

-- The initial entry that is pushed is the flag.
def pushInitial (locInfo : LocInfo) : ExprM Unit :=
  if locInfo.hInitial ≠ 0 then pushIgnored locInfo.hInitial else pure ()

-- `loclist` is what `dwarf_attr` and `dwarf_get_loclist_c` give for the attribute.
def getVarLocation (env : ExprEnv) (fuel : Nat) (loclist : DwRes (List (DwRes LocDesc))) :
    ExprM UWORD := do
  let s ← Action.fetch
  pushInitial s.locInfo
  match loclist with
  | .noEntry | .error => Action.fail 1
  | .ok descs =>
      let offset := s.locInfo.calleeRegsCurValue.rip - s.locInfo.loadAddress
      let ops ← searchLocDesc offset descs []
      (evaluateExpr env fuel ops 0).orFail 1

end VDebugger
