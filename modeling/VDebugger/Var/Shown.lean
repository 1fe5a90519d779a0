import VDebugger.LocExpr.Locations
import VDebugger.LocExpr.Straight
import VDebugger.Var.Found
import VDebugger.Var.Struct

namespace VDebugger

open Machine HandlerM Action

variable {κ : Type} {env : Env κ} {var : VarEnv κ} {types : TypeEnv} {s t : Debugger κ}

section Locations

variable {locInfo : LocInfo} {ops : List LocOp} {die : Die} {attr : LocAttr}

-- What an expression comes to on the machine of the reference.
def Reference.value (peek : UWORD → Option UWORD) (locInfo : LocInfo) (ops : List LocOp) :
    Option UWORD :=
  (Reference.run peek locInfo ops []).bind List.head?

-- The attribute gives an expression without branches and registers at the pc.
structure Located (var : VarEnv κ) (locInfo : LocInfo) (die : Die) (attr : LocAttr)
    (ops : List LocOp) : Prop where
  loclist : ∃ descs : List LocDesc, var.loclist die attr = .ok (descs.map .ok) ∧
    enteredOps locInfo.pcOffset [] descs = ops.map .ok
  straightLine : ∀ loc ∈ ops, loc.op.straightLine = true
  fuel : ops.length ≤ var.fuel

end Locations

section Local

variable {name : CString} {subProgDie varDie : Die} {locInfo : LocInfo} {frameOps ops : List LocOp}
  {base : TypeDie} {peek : UWORD → Option UWORD} {path : List Nat}

-- A variable of a base type in the function at the pc, with what is known of it and its frame. It
-- is not the first child of its block, whose DIE the walk frees.
structure LocalVar (env : Env κ) (var : VarEnv κ) (types : TypeEnv) (s : Debugger κ)
    (name : CString) (subProgDie : Die) (path : List Nat) (varDie : Die) (locInfo : LocInfo)
    (frameOps ops : List LocOp) (base : TypeDie) : Prop where
  frame : frameInfo env var s.debugee
    { loadAddress := s.loadAddress, calleeRegsCurValue := s.debugee.regs } = .ok locInfo
  subProg : (getSubProgDieFromAddr (s.debugee.regs.rip - s.loadAddress) s.dwarfDbg).1 =
    (.noEntry, some subProgDie)
  frameBase : Located var locInfo subProgDie .DW_AT_frame_base frameOps
  place : GivesPlace var.undefName name (s.debugee.regs.rip - s.loadAddress) subProgDie (some path)
  later : path.getLast? ≠ some 0
  node : nodeAt Die.children subProgDie path = some varDie
  line : var.declLine varDie ≠ .error
  location : Located var locInfo varDie .DW_AT_location ops
  type : ∃ depth ≤ types.fuel, HasBaseType types depth (types.typeOffset varDie) base

theorem LocalVar.found
    (h : LocalVar env var types s name subProgDie path varDie locInfo frameOps ops base) :
    getLocalVarFromName var.undefName (some name) (s.debugee.regs.rip - s.loadAddress)
      subProgDie = some (.ok (), some varDie) := by
  rw [h.place.result, Option.bind_some, h.node]

end Local

section Examples

end Examples

end VDebugger
