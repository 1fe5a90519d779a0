import VDebugger.Handlers

namespace VDebugger

open Machine HandlerM

variable {κ : Type}

inductive LocAttr where
  | DW_AT_frame_base
  | DW_AT_location
  deriving DecidableEq, Repr

-- What `handle_var` cannot see the inside of.
structure VarEnv (κ : Type) where
  -- `unw_get_reg` of UNW_REG_IP after one step.
  unwGetRegIp : Proc κ → Int × UWORD
  -- `dwarf_attr` and `dwarf_get_loclist_c`
  loclist : Die → LocAttr → DwRes (List (DwRes LocDesc))
  -- `dwarf_attr` of DW_AT_decl_line and `dwarf_formsdata`
  declLine : Die → DwRes WORD
  -- `__ptrace_peek_data` and values without a write, in the evaluation of an expression.
  expr : Debugger κ → ExprEnv
  -- How many passes over an expression are observed.
  fuel : Nat
  -- What `dwarf_diename` leaves in `die_name` where there is no name.
  undefName : CString
  -- `sprint_variable_die_val` and `handle_param_var`, which are given no token.
  sprintVariableDieVal : Die → UWORD → DebuggerM κ Unit
  handleParamVar : VAR_OPTIONS → DebuggerM κ Unit

-- `init_loc_info` fills what it is given.
def initLocInfo (env : Env κ) (var : VarEnv κ) (locInfo : LocInfo) : DebuggerM κ LocInfo := do
  let calleeRegsCurValue ← getRegsStruct env
  let locInfo := { locInfo with calleeRegsCurValue }
  let s ← Action.fetch
  Action.failIf (env.unwInitRemote s.debugee < 0) 1
  Action.failIf (env.unwStep s.debugee < 0) 1
  if env.unwStep s.debugee = 0 then pure locInfo
  else
    let (ipRes, callerIp) := var.unwGetRegIp s.debugee
    Action.failIf (ipRes < 0) 1
    let (spRes, callerSp) := env.unwGetRegSp s.debugee
    Action.failIf (spRes < 0) 1
    pure { locInfo with
      callerIp
      callerSp }

-- `get_var_location` on a DIE of the debugee, where a null pointer has no attributes.
def varLocation (var : VarEnv κ) (locInfo : LocInfo) (die : Option Die) (attr : LocAttr) :
    DebuggerM κ UWORD := fun s =>
  let loclist := match die with
    | none => .error
    | some die => var.loclist die attr
  ((getVarLocation (var.expr s) var.fuel loclist locInfo.freshExpr).1, s)

mutual

-- The result and `*var_die`. `none` where `strcmp` is given a null pointer.
def getLocalVarFromName (undef : CString) (varName : Option CString) (pc : UWORD) :
    Die → Option (DwRes Unit × Option Die)
  | .mk attrs children =>
      match attrs.tag with
      | .DW_TAG_variable | .DW_TAG_formal_parameter =>
          match attrs.name with
          | .error => some (.error, none)
          | .noEntry => varName.map fun name =>
              (.ok (), if name = undef then some (.mk attrs children) else none)
          | .ok dieName => varName.map fun name =>
              (.ok (), if name = dieName then some (.mk attrs children) else none)
      | .DW_TAG_lexical_block | .DW_TAG_subprogram | .DW_TAG_inlined_subroutine =>
          match getLowHighPcFromDie (.mk attrs children) with
          | .noEntry => some (.noEntry, none)
          | .error => some (.error, none)
          | .ok (low, high) =>
              if low > pc || high < pc then some (.ok (), none)
              else localVarChildren undef varName pc children
      | _ => some (.ok (), none)

-- The first child, whose result is returned as it is.
def localVarChildren (undef : CString) (varName : Option CString) (pc : UWORD) :
    List Die → Option (DwRes Unit × Option Die)
  | [] => some (.ok (), none)
  | child :: siblings =>
      match getLocalVarFromName undef varName pc child with
      | some (.ok (), none) => localVarSiblings undef varName pc siblings
      | result => result

-- The loop over the siblings, behind which only DW_DLV_ERROR is an error.
def localVarSiblings (undef : CString) (varName : Option CString) (pc : UWORD) :
    List Die → Option (DwRes Unit × Option Die)
  | [] => some (.ok (), none)
  | die :: siblings =>
      match getLocalVarFromName undef varName pc die with
      | some (.ok (), none) => localVarSiblings undef varName pc siblings
      | some (.noEntry, varDie) => some (.ok (), varDie)
      | result => result

end

-- `handle_get_local_var` up to the DIE of the function that the debugee has stopped in.
def stoppedSubProg (env : Env κ) (var : VarEnv κ) : DebuggerM κ (Option Die × UWORD × LocInfo) := do
  let s ← Action.fetch
  let locInfo ← initLocInfo env var { loadAddress := s.loadAddress }
  let pc ← getRegValue env .rip
  let s ← Action.fetch
  let ((res, subProgDie), dwarfDbg) := getSubProgDieFromAddr (pc - s.loadAddress) s.dwarfDbg
  Action.change fun s => { s with dwarfDbg }
  Action.failIf (res = .error) 1
  pure (subProgDie, pc - s.loadAddress, locInfo)

-- The frame to look in. A null pointer has no frame base.
def frameOfSubProg (var : VarEnv κ) :
    Option Die × UWORD × LocInfo → DebuggerM κ (Die × UWORD × LocInfo)
  | (subProgDie, pc, locInfo) => do
      let frameBase ← varLocation var locInfo subProgDie .DW_AT_frame_base
      match subProgDie with
      | none => Action.fail 1
      | some die => pure (die, pc, { locInfo with frameBase })

def localScope (env : Env κ) (var : VarEnv κ) : DebuggerM κ (Die × UWORD × LocInfo) := do
  frameOfSubProg var (← stoppedSubProg env var)

def handleGetLocalVar (env : Env κ) (var : VarEnv κ) (varName : Option CString) :
    HandlerM κ Unit := do
  let (subProgDie, pc, locInfo) ← call (localScope env var)
  match getLocalVarFromName var.undefName varName pc subProgDie with
  | none => OptionT.fail
  | some (.noEntry, _) => reject (-1)
  | some (.error, _) => reject 1
  -- `dwarf_attr` gives DW_DLV_ERROR for a null pointer.
  | some (.ok (), none) => reject 1
  | some (.ok (), some varDie) => do
      rejectIf (var.declLine varDie = .error) 1
      let varAddr ← call (varLocation var locInfo (some varDie) .DW_AT_location)
      call (var.sprintVariableDieVal varDie varAddr)

def handleVar (env : Env κ) (var : VarEnv κ) (tokens : List CString) : HandlerM κ Unit := do
  let arg := tokens[0]?
  rejectIf (arg = none) 1
  let mode ← matchVarOption arg
  rejectIf (mode ≠ .GET_VAR_ADDR_OPTION ∧ mode ≠ .GET_VAR_VALUE_OPTION) 1
  let arg := tokens[1]?
  rejectIf (arg = none) 1
  let op ← matchVarOption arg
  match op with
  | .PARAM_VAR_OPTION => call (var.handleParamVar mode)
  | .LOCAL_VAR_OPTION => handleGetLocalVar env var tokens[2]?
  | _ => reject 1

-- `handle_command`. `backtrace` is given no token.
def handleTokens (env : Env κ) (var : VarEnv κ) (backtrace : DebuggerM κ Unit) (cmnd : COMMAND)
    (tokens : List CString) : HandlerM κ Unit :=
  match cmnd with
  | .CONTINUE => call (handleContinue env)
  | .BREAKPOINT => handleBreakpoint env tokens
  | .REG => handleRegister env tokens
  | .STEP => handleStep env tokens
  | .WHERE => handleWhere env tokens
  | .FINISH => call (stepOut env)
  | .NEXT => call (stepIn env)
  | .BACKTRACE => call backtrace
  | .VAR => handleVar env var tokens
  | .PEEK_DATA => handlePeek env tokens
  | .EXIT | .INVALID_CMD => reject 1

end VDebugger
