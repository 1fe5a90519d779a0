import VDebugger.LocExpr

namespace VDebugger

open Machine

-- The operations of an expression without branches and registers.
def DwOp.straightLine : DwOp → Bool
  | .DW_OP_deref_size | .DW_OP_div | .DW_OP_mod | .DW_OP_shl | .DW_OP_shr | .DW_OP_shra
  | .DW_OP_skip | .DW_OP_bra | .DW_OP_reg _ | .DW_OP_breg _ | .DW_OP_regx | .DW_OP_bregx
  | .DW_OP_implicit_value | .DW_OP_implicit_pointer => false
  | _ => true

namespace Reference

-- The stack of the DWARF machine, the top first.
abbrev Stack : Type := List UWORD

def unary (f : UWORD → UWORD) : Stack → Option Stack
  | top :: rest => some (f top :: rest)
  | [] => none

-- The function takes the former second entry and then the former top.
def binary (f : UWORD → UWORD → UWORD) : Stack → Option Stack
  | top :: second :: rest => some (f second top :: rest)
  | _ => none

def comparison (holds : Int → Int → Bool) : Stack → Option Stack :=
  binary fun second top => if holds second.toInt top.toInt then 1 else 0

def pick (index : Nat) (stack : Stack) : Option Stack :=
  (stack[index]?).map fun value => value :: stack

-- One operation on a stack without a limit.
def operation (peek : UWORD → Option UWORD) (locInfo : LocInfo) (loc : LocOp) (stack : Stack) :
    Option Stack :=
  match loc.op with
  | .DW_OP_addr => some ((loc.opd1 + locInfo.loadAddress) :: stack)
  | .DW_OP_const1u | .DW_OP_const1s | .DW_OP_const2u | .DW_OP_const2s | .DW_OP_const4u
  | .DW_OP_const4s | .DW_OP_const8u | .DW_OP_const8s | .DW_OP_constu | .DW_OP_consts =>
      some (loc.opd1 :: stack)
  | .DW_OP_lit n => some (BitVec.ofNat 64 n :: stack)
  | .DW_OP_fbreg => some ((locInfo.frameBase + loc.opd1) :: stack)
  | .DW_OP_call_frame_cfa => some (locInfo.callerSp :: stack)
  | .DW_OP_push_object_address => some (locInfo.objAddr :: stack)
  | .DW_OP_dup => pick 0 stack
  | .DW_OP_over => pick 1 stack
  | .DW_OP_pick => pick loc.opd1.toNat stack
  | .DW_OP_drop =>
      match stack with
      | _ :: rest => some rest
      | [] => none
  | .DW_OP_swap =>
      match stack with
      | top :: second :: rest => some (second :: top :: rest)
      | _ => none
  | .DW_OP_rot =>
      match stack with
      | top :: second :: third :: rest => some (second :: third :: top :: rest)
      | _ => none
  | .DW_OP_deref =>
      match stack with
      | top :: rest => (peek top).map fun data => data :: rest
      | [] => none
  | .DW_OP_abs => unary (fun top => BitVec.ofNat 64 top.toInt.natAbs) stack
  | .DW_OP_neg => unary (fun top => BitVec.ofInt 64 (-top.toInt)) stack
  | .DW_OP_not => unary (fun top => ~~~top) stack
  | .DW_OP_plus_uconst => unary (fun top => top + loc.opd1) stack
  | .DW_OP_and => binary (fun second top => second &&& top) stack
  | .DW_OP_or => binary (fun second top => second ||| top) stack
  | .DW_OP_xor => binary (fun second top => second ^^^ top) stack
  | .DW_OP_plus => binary (fun second top => second + top) stack
  | .DW_OP_minus => binary (fun second top => second - top) stack
  | .DW_OP_mul => binary (fun second top => second * top) stack
  | .DW_OP_eq => comparison (fun second top => second = top) stack
  | .DW_OP_ne => comparison (fun second top => second ≠ top) stack
  | .DW_OP_ge => comparison (fun second top => second ≥ top) stack
  | .DW_OP_gt => comparison (fun second top => second > top) stack
  | .DW_OP_le => comparison (fun second top => second ≤ top) stack
  | .DW_OP_lt => comparison (fun second top => second < top) stack
  | .DW_OP_nop | .DW_OP_stack_value => some stack
  | _ => none

-- The machine has 256 entries.
def limit (stack : Stack) : Option Stack :=
  if stack.length ≤ 256 then some stack else none

def step (peek : UWORD → Option UWORD) (locInfo : LocInfo) (loc : LocOp) (stack : Stack) :
    Option Stack :=
  (operation peek locInfo loc stack).bind limit

def run (peek : UWORD → Option UWORD) (locInfo : LocInfo) : List LocOp → Stack → Option Stack
  | [], stack => some stack
  | loc :: rest, stack => (step peek locInfo loc stack).bind (run peek locInfo rest)

theorem limit_of_le {stack : Stack} (h : stack.length ≤ 256) : limit stack = some stack := if_pos h

theorem limit_of_lt {stack : Stack} (h : 256 < stack.length) : limit stack = none :=
  if_neg (by omega)

end Reference

end VDebugger
