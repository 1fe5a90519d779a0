import VDebugger.Command
import VDebugger.LocExpr
import VDebugger.Cmdline

namespace VDebugger

open Machine

variable {κ α β : Type}

-- What a handler does. `none` stands for a null pointer that is passed to `strtoll`,
-- `strtol` or `strcmp`.
abbrev HandlerM (κ α : Type) : Type := OptionT (DebuggerM κ) α

namespace HandlerM

def call (x : DebuggerM κ α) : HandlerM κ α := OptionT.lift x

-- `return code;`
def reject (code : Int) : HandlerM κ α := call (Action.fail code)

def rejectIf (c : Prop) [Decidable c] (code : Int) : HandlerM κ Unit :=
  call (Action.failIf c code)

-- A token where a function that does not look for null pointers reads its characters.
def read (token : Option CString) : HandlerM κ CString := OptionT.mk (pure token)

end HandlerM

open HandlerM

def isSpace (c : Char) : Bool := isWhitespace c || c = '\x0b' || c = '\x0c'

def digitValue (c : Char) : Nat :=
  if '0' ≤ c ∧ c ≤ '9' then c.toNat - '0'.toNat
  else if 'a' ≤ c ∧ c ≤ 'z' then c.toNat - 'a'.toNat + 10
  else if 'A' ≤ c ∧ c ≤ 'Z' then c.toNat - 'A'.toNat + 10
  else 36

-- The digits of a number, behind `0x` for base 16.
def withoutPrefix (base : Nat) : CString → CString
  | '0' :: x :: digit :: rest =>
      if base = 16 ∧ (x = 'x' ∨ x = 'X') ∧ digitValue digit < 16 then digit :: rest
      else '0' :: x :: digit :: rest
  | s => s

-- The magnitude and what stands behind the last digit, `none` where there is no digit.
def parseDigits (base : Nat) (s : CString) : Option (Nat × CString) :=
  let digits := (withoutPrefix base s).takeWhile fun c => digitValue c < base
  if digits = [] then none
  else some (digits.foldl (fun n c => n * base + digitValue c) 0,
    (withoutPrefix base s).dropWhile fun c => digitValue c < base)

-- The number, at most LLONG_MAX and at least LLONG_MIN, and the string at `*endptr`.
def parseNumber (base : Nat) (s : CString) : Int × CString :=
  let limit (n : Int) : Int := max (-2 ^ 63) (min n (2 ^ 63 - 1))
  match s.dropWhile isSpace with
  | '-' :: rest =>
      match parseDigits base rest with
      | none => (0, s)
      | some (n, rest) => (limit (-n), rest)
  | '+' :: rest =>
      match parseDigits base rest with
      | none => (0, s)
      | some (n, rest) => (limit n, rest)
  | rest =>
      match parseDigits base rest with
      | none => (0, s)
      | some (n, rest) => (limit n, rest)

-- `strtoll`, and `strtol` on a machine where both numbers have 64 bits
def strtoll (base : Nat) (token : Option CString) : HandlerM κ (WORD × CString) := do
  let s ← read token
  let (n, rest) := parseNumber base s
  pure (BitVec.ofInt 64 n, rest)

def matchWhereOption (buffer : Option CString) : HandlerM κ WHERE_OPTIONS := do
  let s ← read buffer
  pure (if s = "func".toList then .WHERE_ARG_FUNC
    else if s = "line".toList then .WHERE_ARG_LINE
    else if s = "addr".toList then .WHERE_ARG_ADDR
    else .INVALID_WHERE_OPT)

def varOption (s : CString) : VAR_OPTIONS :=
  if s = "get&".toList then .GET_VAR_ADDR_OPTION
  else if s = "get".toList then .GET_VAR_VALUE_OPTION
  else if s = "set".toList then .SET_VAR_ADDR_OPTION
  else if s = "params".toList then .PARAM_VAR_OPTION
  else if s = "local".toList then .LOCAL_VAR_OPTION
  else .INVALID_VAR_OPTION

def matchVarOption (buffer : Option CString) : HandlerM κ VAR_OPTIONS := do
  let s ← read buffer
  pure (varOption s)

-- NO_SUCH_REGISTER, which is also the number of r14.
def NO_SUCH_REGISTER : Nat := 1

def registerAbbr : List CString :=
  ["r15", "r14", "r13", "r12", "rbp", "rbx", "r11", "r10", "r9", "r8", "rax", "rcx", "rdx", "rsi",
    "rdi", "orig_rax", "rip", "cs", "eflags", "rsp", "ss", "fs_base", "gs_base", "ds", "es", "fs",
    "gs"].map String.toList

def DWARFMappings : List Int :=
  [15, 14, 13, 12, 6, 3, 11, 10, 9, 8, 0, 2, 1, 4, 5, -1, -1, 51, 49, 7, 52, 58, 59, 53, 50, 54, 55]

def abbrToReg (abbr : Option CString) : HandlerM κ Nat := do
  let s ← read abbr
  pure ((registerAbbr.findIdx? (· = s)).getD NO_SUCH_REGISTER)

def DWToReg (dwarfn : Int) : Nat := (DWARFMappings.findIdx? (· = dwarfn)).getD NO_SUCH_REGISTER

-- `arg` behind the `switch` over `mode` in `handle_breakpoint`.
def breakpointArg (env : Env κ) (mode : BREAKPOINT_OPTIONS) (argToken : CString)
    (tokens : List CString) : HandlerM κ WORD :=
  match mode with
  | .BREAKPOINT_ARG_MEMADDR => do
      let (arg, argEnd) ← strtoll 16 (some argToken)
      rejectIf (argEnd ≠ []) Errors.INVALID_COMMAND.code
      pure arg
  | .BREAKPOINT_ARG_LINENUM => do
      let fileName := argToken
      let (arg, argEnd) ← strtoll 10 tokens[3]?
      rejectIf (argEnd ≠ []) Errors.INVALID_COMMAND.code
      let s ← call Action.fetch
      let undef := env.undef s.log.length
      let (res, dwarfDbg) := getAddrFromSourceLine undef fileName arg s.dwarfDbg
      call (Action.change fun s => { s with dwarfDbg })
      match res with
      | .ok addr => pure addr
      | .noEntry | .error => reject 1
  | _ => reject Errors.INVALID_COMMAND.code

def handleBreakpoint (env : Env κ) (tokens : List CString) : HandlerM κ Unit := do
  let action := matchBreakpointOption tokens[0]?
  let mode := matchBreakpointOption tokens[1]?
  rejectIf (action = .INVALID_BREAKPOINT_OPT ∨ mode = .INVALID_BREAKPOINT_OPT) 1
  match tokens[2]? with
  | none => reject 1
  | some argToken => do
      let arg ← breakpointArg env mode argToken tokens
      let s ← call Action.fetch
      let arg := arg + s.loadAddress
      match action with
      | .ENABLE_BREAKPOINT => call (handleBreakpointAt env .ENABLE_BREAKPOINT arg)
      | .DISABLE_BREAKPOINT => call (handleBreakpointAt env .DISABLE_BREAKPOINT arg)
      -- The `switch` has no case for the two modes, and `res` is returned as it is.
      | _ => do
          let (res, _) ← call (getBreakpointAtAddr env arg)
          rejectIf (res ≠ 0) res

-- The register that `handle_register` is given. `arg` is null or a token.
def registerArg (env : Env κ) (mode : REGISTER_OPTIONS) (base : Nat) (arg : Option CString) :
    HandlerM κ Nat :=
  match mode with
  | .REGISTER_ARG_ABBR => abbrToReg arg
  | .REGISTER_ARG_DWARF => do
      let (n, rest) ← strtoll base arg
      rejectIf (rest ≠ []) Errors.INVALID_COMMAND.code
      pure (DWToReg (n.setWidth 32).toInt)
  -- `reg` has no value.
  | _ => do
      let s ← call Action.fetch
      pure ((env.undef s.log.length).toNat % 2 ^ 32)

def handleRegister (env : Env κ) (tokens : List CString) : HandlerM κ Unit := do
  let action := matchRegisterOption tokens[0]?
  let mode := matchRegisterOption tokens[1]?
  rejectIf (action = .INVALID_REGISTER_OPT ∨ mode = .INVALID_REGISTER_OPT) 1
  let arg := tokens[2]?
  let _ ← call (getRegsStruct env)
  match action with
  | .READ_REGISTER =>
      if mode = .REGISTER_ARG_ALL then rejectIf (arg ≠ none) Errors.INVALID_COMMAND.code
      else do
        rejectIf (arg = none) Errors.INVALID_COMMAND.code
        let reg ← registerArg env mode 16 arg
        rejectIf (reg = NO_SUCH_REGISTER) 1
        rejectIf (getRegister reg = none) 1
  | .WRITE_REGISTER => do
      rejectIf (arg = none) Errors.INVALID_COMMAND.code
      let reg ← registerArg env mode 10 arg
      rejectIf (reg = NO_SUCH_REGISTER) 1
      let arg := tokens[3]?
      rejectIf (arg = none) Errors.INVALID_COMMAND.code
      let (value, rest) ← strtoll 10 arg
      rejectIf (rest ≠ []) Errors.INVALID_COMMAND.code
      -- The result of `set_reg_value` is not looked at.
      match getRegister reg with
      | none => do
          let _ ← call (getRegsStruct env).attempt
          pure ()
      | some reg => do
          let _ ← call (setRegValue env reg value).attempt
          pure ()
  | _ => reject Errors.INVALID_COMMAND.code

def handleStep (env : Env κ) (tokens : List CString) : HandlerM κ Unit := do
  let arg := tokens[0]?
  rejectIf (arg = none) 1
  let (times, rest) ← strtoll 10 arg
  rejectIf (rest ≠ []) 1
  call (handleStepTimes env times)

-- `get_subprog_name`: `dwarf_diename` gives DW_DLV_ERROR for a null pointer.
def getSubprogName (addr : WORD) : DebuggerM κ CString := do
  let s ← Action.fetch
  let ((res, subProgDie), dwarfDbg) := getSubProgDieFromAddr (addr - s.loadAddress) s.dwarfDbg
  Action.change fun s => { s with dwarfDbg }
  match res, subProgDie with
  | .error, _ => Action.fail 1
  | _, none => Action.fail 1
  | _, some die =>
      match die.attrs.name with
      | .ok name => pure name
      | .noEntry | .error => Action.fail 1

def handleWhere (env : Env κ) (tokens : List CString) : HandlerM κ Unit := do
  let arg := tokens[0]?
  rejectIf (arg = none) 1
  let mode ← matchWhereOption arg
  let pc ← call (getRegValue env .rip)
  match mode with
  | .WHERE_ARG_ADDR => pure ()
  | .WHERE_ARG_FUNC => do
      let _ ← call (getSubprogName pc)
      pure ()
  | .WHERE_ARG_LINE => do
      let s ← call Action.fetch
      let (res, dwarfDbg) := getLineNoFromAddr (pc - s.loadAddress) s.dwarfDbg
      call (Action.change fun s => { s with dwarfDbg })
      match res with
      | .ok _ => pure ()
      | .noEntry | .error => reject 1
  | .INVALID_WHERE_OPT => reject 1

def handlePeek (env : Env κ) (tokens : List CString) : HandlerM κ Unit := do
  let arg := tokens[0]?
  rejectIf (arg = none) 1
  let (addr, argEnd) ← strtoll 16 arg
  rejectIf (argEnd ≠ []) Errors.INVALID_COMMAND.code
  let _ ← call ((ptracePeekData env addr).orFail 1)
  pure ()

end VDebugger
