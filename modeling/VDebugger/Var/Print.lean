import VDebugger.Handlers.Tokens

namespace VDebugger

open Machine HandlerM

variable {κ α β : Type}

inductive TypeTag where
  | DW_TAG_base_type | DW_TAG_structure_type | DW_TAG_array_type | DW_TAG_class_type
  | DW_TAG_union_type
  | DW_TAG_atomic_type | DW_TAG_const_type | DW_TAG_immutable_type | DW_TAG_packed_type
  | DW_TAG_pointer_type | DW_TAG_reference_type | DW_TAG_restrict_type
  | DW_TAG_rvalue_reference_type | DW_TAG_shared_type | DW_TAG_volatile_type | DW_TAG_typedef
  | DW_TAG_member
  | other (tag : Nat)
  deriving DecidableEq, Repr

-- The value of DW_AT_encoding
inductive Encoding where
  | DW_ATE_address | DW_ATE_boolean | DW_ATE_float | DW_ATE_signed | DW_ATE_signed_char
  | DW_ATE_unsigned | DW_ATE_unsigned_char
  | other (encoding : WORD)
  deriving DecidableEq, Repr

inductive LocForm where
  | DW_FORM_data1 | DW_FORM_data2 | DW_FORM_data4 | DW_FORM_data8 | DW_FORM_sdata | DW_FORM_udata
  | DW_FORM_exprloc | DW_FORM_loclistx | DW_FORM_sec_offset
  | DW_FORM_data16
  | other (form : Nat)
  deriving DecidableEq, Repr

-- What `dwarf_whatform` and `dwarf_formsdata` give for a DW_AT_data_member_location.
structure LocAttribute where
  whatform : DwRes LocForm
  formsdata : DwRes WORD

-- A child of the DIE of a structure type.
structure MemberDie where
  tag : DwRes TypeTag
  diename : DwRes CString
  -- `dwarf_dietype_offset`
  typeOffset : DwRes UWORD
  dataMemberLocation : DwRes LocAttribute
  -- `dwarf_attr` of DW_AT_data_location and `dwarf_get_loclist_c`
  dataLocation : DwRes (List (DwRes LocDesc))

-- The DIE of a type.
structure TypeDie where
  tag : DwRes TypeTag
  typeOffset : DwRes UWORD
  -- `dwarf_attr` of DW_AT_encoding and `dwarf_formsdata`
  encoding : DwRes Encoding
  bytesize : DwRes UWORD
  -- `dwarf_child`, and then `dwarf_siblingof_c` again and again, up to the last child
  children : List (DwRes MemberDie)

-- What the printer cannot see the inside of.
structure TypeEnv where
  -- `dwarf_dietype_offset` of a variable
  typeOffset : Die → DwRes UWORD
  offdie : UWORD → DwRes TypeDie
  -- `%lf`, from the 64 bits of the double
  formatDouble : UWORD → CString
  -- What `data_member_location` holds when nothing is written there, after so many requests.
  undefLocation : Nat → LocAttribute
  -- How many DIEs of types are visited on one path.
  fuel : Nat

-- `if (res) return res;`, where DW_DLV_NO_ENTRY is -1 and DW_DLV_ERROR is 1
def DwRes.orReturn (res : DwRes α) : DebuggerM κ α :=
  match res with
  | .ok value => pure value
  | .noEntry => Action.fail (-1)
  | .error => Action.fail 1

@[simp] theorem DwRes.orReturn_ok_bind (value : α) (f : α → DebuggerM κ β) :
    (DwRes.ok value).orReturn >>= f = f value := rfl

-- `%llu`, `%llx` and `%lli`
def formatUnsigned (data : UWORD) : CString := Nat.toDigits 10 data.toNat

def formatHex (data : UWORD) : CString := Nat.toDigits 16 data.toNat

def formatSigned (data : WORD) : CString :=
  if data.toInt < 0 then '-' :: Nat.toDigits 10 data.toInt.natAbs
  else Nat.toDigits 10 data.toInt.natAbs

-- The `switch` over the encoding in `sprint_var_die_given_base`.
def formatBase (types : TypeEnv) (encoding : Encoding) (data : UWORD) : DwRes CString :=
  match encoding with
  | .DW_ATE_boolean => .ok (if data ≠ 0 then "true".toList else "false".toList)
  | .DW_ATE_address => .ok (formatHex data)
  | .DW_ATE_unsigned | .DW_ATE_unsigned_char => .ok (formatUnsigned data)
  | .DW_ATE_signed | .DW_ATE_signed_char => .ok (formatSigned data)
  | .DW_ATE_float => .ok (types.formatDouble data)
  | .other _ => .error

-- `sprint_var_die_given_base` from where the word is known.
def decodeBase (types : TypeEnv) (typeDie : TypeDie) (data : UWORD) : DwRes CString :=
  match typeDie.encoding with
  | .noEntry => .noEntry
  | .error => .error
  | .ok encoding =>
      match typeDie.bytesize with
      | .error => .error
      | .noEntry => formatBase types encoding data
      | .ok byteSize =>
          if byteSize > 8 then .error
          else if byteSize < 8 then
            formatBase types encoding (data &&& (((1 : UWORD) <<< (8 * byteSize.toNat)) - 1))
          else formatBase types encoding data

def sprintVarDieGivenBase (env : Env κ) (types : TypeEnv) (varAddr : UWORD) (typeDie : TypeDie) :
    DebuggerM κ CString := do
  let data ← ptracePeekData env varAddr
  (decodeBase types typeDie data).orReturn

-- The member that `get_data_members` moves on to, and the children behind it.
def getDataMembers : List (DwRes MemberDie) → DwRes (MemberDie × List (DwRes MemberDie))
  | [] => .noEntry
  | .noEntry :: _ => .noEntry
  | .error :: _ => .error
  | .ok die :: rest =>
      match die.tag with
      | .noEntry => .noEntry
      | .error => .error
      | .ok .DW_TAG_member => .ok (die, rest)
      | .ok _ => getDataMembers rest

-- `get_var_location` on a member, whose result is not looked at.
def memberLocation (env : Env κ) (var : VarEnv κ) (locInfo : LocInfo) (member : MemberDie) :
    DebuggerM κ UWORD := fun s =>
  match (getVarLocation (var.expr s) var.fuel member.dataLocation locInfo.freshExpr).1 with
  | .ok memberAddr => (.ok memberAddr, s)
  | .error _ => (.ok (env.undef s.log.length), s)
  | .pending => (.pending, s)

-- `member_addr`, or `none` where the function returns the 0 that is in `res`. The result of
-- `dwarf_attr` is not stored: the test that follows is on that of `dwarf_diename`.
def memberAddr (env : Env κ) (var : VarEnv κ) (types : TypeEnv) (locInfo : LocInfo)
    (varAddr : UWORD) (member : MemberDie) : DebuggerM κ (Option UWORD) :=
  if member.diename = .noEntry then pure (some varAddr)
  else do
    let s ← Action.fetch
    let dataMemberLocation :=
      match member.dataMemberLocation with
      | .ok attr => attr
      | .noEntry | .error => types.undefLocation s.log.length
    let form ← dataMemberLocation.whatform.orReturn
    match form with
    | .DW_FORM_data1 | .DW_FORM_data2 | .DW_FORM_data4 | .DW_FORM_data8 | .DW_FORM_sdata
    | .DW_FORM_udata => do
        let offset ← dataMemberLocation.formsdata.orReturn
        pure (some (offset + varAddr))
    | .DW_FORM_exprloc | .DW_FORM_loclistx | .DW_FORM_sec_offset => do
        let addr ← memberLocation env var locInfo member
        pure (some addr)
    | .DW_FORM_data16 | .other _ => pure none

-- `[%i]%s: ` behind a separator
def memberLabel (i : Nat) (name : CString) : CString :=
  (if i > 0 then ", ".toList else []) ++ '[' :: Nat.toDigits 10 i ++ ']' :: name ++ ": ".toList

-- The loop over the members, from member `i` on, with what is written behind it. Each pass
-- leaves fewer children. An error of `get_data_members` ends the loop like the last child.
def sprintMembers (env : Env κ) (var : VarEnv κ) (types : TypeEnv) (locInfo : LocInfo)
    (varAddr : UWORD) (sprintVal : DwRes UWORD → UWORD → DebuggerM κ CString) :
    Nat → Nat → List (DwRes MemberDie) → DebuggerM κ CString
  | 0, _, _ => pure ['}']
  | passes + 1, i, children =>
      match getDataMembers children with
      | .noEntry | .error => pure ['}']
      | .ok (member, rest) => do
          let label ← match member.diename with
            | .error => Action.fail 1
            | .noEntry => pure (memberLabel i "--".toList)
            | .ok memberName => pure (memberLabel i memberName)
          match ← memberAddr env var types locInfo varAddr member with
          | none => pure label
          | some addr => do
              let memberVal ← sprintVal member.typeOffset addr
              let behind ← sprintMembers env var types locInfo varAddr sprintVal passes (i + 1) rest
              pure (label ++ memberVal ++ behind)

-- The initial value of the evaluations is in `inital`, and its flag in `h_initial`.
def sprintVarDieGivenStructType (env : Env κ) (var : VarEnv κ) (types : TypeEnv)
    (sprintVal : DwRes UWORD → UWORD → DebuggerM κ CString) (varAddr : UWORD)
    (structTypeDie : TypeDie) : DebuggerM κ CString := do
  let s ← Action.fetch
  let locInfo ← initLocInfo env var
    { loadAddress := s.loadAddress, hInitial := 1, inital := varAddr }
  let members ← sprintMembers env var types locInfo varAddr sprintVal
    structTypeDie.children.length 0 structTypeDie.children
  pure ('{' :: members)

-- The text at `print_output`, for a variable or member with this type.
def sprintVariableDieVal (env : Env κ) (var : VarEnv κ) (types : TypeEnv) :
    Nat → DwRes UWORD → UWORD → DebuggerM κ CString
  | 0, _, _ => Action.block
  | fuel + 1, typeOffset, varAddr => do
      let offset ← typeOffset.orReturn
      let typeDie ← (types.offdie offset).orReturn
      let typeTag ← typeDie.tag.orReturn
      match typeTag with
      | .DW_TAG_base_type => sprintVarDieGivenBase env types varAddr typeDie
      | .DW_TAG_structure_type =>
          sprintVarDieGivenStructType env var types (sprintVariableDieVal env var types fuel)
            varAddr typeDie
      | .DW_TAG_array_type | .DW_TAG_class_type | .DW_TAG_union_type => Action.fail 1
      | .DW_TAG_atomic_type | .DW_TAG_const_type | .DW_TAG_immutable_type | .DW_TAG_packed_type
      | .DW_TAG_pointer_type | .DW_TAG_reference_type | .DW_TAG_restrict_type
      | .DW_TAG_rvalue_reference_type | .DW_TAG_shared_type | .DW_TAG_volatile_type
      | .DW_TAG_typedef => sprintVariableDieVal env var types fuel typeDie.typeOffset varAddr
      | .DW_TAG_member | .other _ => Action.fail 1

-- `"%s (declared at line %lli): %s\n"`
def localVarLine (varName : CString) (declLine : WORD) (varVal : CString) : CString :=
  varName ++ " (declared at line ".toList ++ formatSigned declLine ++ "): ".toList ++ varVal ++
    ['\n']

-- `decl_line`, where the attribute may be missing
def DwRes.lineOrZero : DwRes WORD → WORD
  | .ok line => line
  | .noEntry | .error => 0

-- `handle_get_local_var` behind the walk, with the line that it writes to stdout.
def printStage (env : Env κ) (var : VarEnv κ) (types : TypeEnv) (varName : Option CString)
    (locInfo : LocInfo) (varDie : Die) : HandlerM κ CString := do
  rejectIf (var.declLine varDie = .error) 1
  let varAddr ← call (varLocation var locInfo (some varDie) .DW_AT_location)
  let varVal ← call
    (sprintVariableDieVal env var types types.fuel (types.typeOffset varDie) varAddr)
  -- A name was found for it to be equal to.
  pure (localVarLine (varName.getD []) (var.declLine varDie).lineOrZero varVal)

def printLocalVar (env : Env κ) (var : VarEnv κ) (types : TypeEnv) (varName : Option CString) :
    HandlerM κ CString := do
  let (subProgDie, pc, locInfo) ← call (localScope env var)
  match getLocalVarFromName var.undefName varName pc subProgDie with
  | none => OptionT.fail
  | some (.noEntry, _) => reject (-1)
  | some (.error, _) => reject 1
  | some (.ok (), none) => reject 1
  | some (.ok (), some varDie) => printStage env var types varName locInfo varDie

-- The debugger with this printer in it.
def VarEnv.withPrinter (var : VarEnv κ) (env : Env κ) (types : TypeEnv) : VarEnv κ :=
  { var with
    sprintVariableDieVal := fun varDie varAddr => do
      let _ ← VDebugger.sprintVariableDieVal env var types types.fuel (types.typeOffset varDie)
        varAddr
      pure () }

theorem run_call_bind (y : DebuggerM κ α) (f : α → HandlerM κ β) (s : Debugger κ) :
    (call y >>= f).run s = match y s with
      | (.ok a, t) => (f a).run t
      | (.error code, t) => (.error code, t)
      | (.pending, t) => (.pending, t) := by
  rw [run_bind_apply, run_call]
  rcases y s with ⟨_ | _ | _, t⟩ <;> rfl

-- Behind the walk, the handlers do the same but for the line.
theorem printStage_withPrinter (env : Env κ) (var : VarEnv κ) (types : TypeEnv)
    (varName : Option CString) (locInfo : LocInfo) (varDie : Die) (s : Debugger κ) :
    (do
      rejectIf ((var.withPrinter env types).declLine varDie = .error) 1
      let varAddr ← call
        (varLocation (var.withPrinter env types) locInfo (some varDie) .DW_AT_location)
      call ((var.withPrinter env types).sprintVariableDieVal varDie varAddr) :
        HandlerM κ Unit).run s =
      match (printStage env var types varName locInfo varDie).run s with
      | (.ok (some _), t) => (.ok (some ()), t)
      | (.ok none, t) => (.ok none, t)
      | (.error code, t) => (.error code, t)
      | (.pending, t) => (.pending, t) := by
  have hline : (var.withPrinter env types).declLine = var.declLine := rfl
  have hlocation : varLocation (var.withPrinter env types) = varLocation var := rfl
  unfold printStage
  rw [hline, hlocation]
  by_cases herror : var.declLine varDie = .error
  · rw [run_rejectIf_of herror, run_rejectIf_of herror]
  rw [run_rejectIf_of_not herror, run_rejectIf_of_not herror, run_call_bind, run_call_bind]
  rcases varLocation var locInfo (some varDie) .DW_AT_location s with ⟨varAddr | _ | _, t⟩
  · dsimp only
    rw [run_call_bind, run_call]
    unfold VarEnv.withPrinter
    dsimp only
    rw [Action.bind_apply]
    rcases sprintVariableDieVal env var types types.fuel (types.typeOffset varDie) varAddr t with
      ⟨_ | _ | _, u⟩ <;> rfl
  · rfl
  · rfl

-- The handler is this one without its line.
theorem handleGetLocalVar_withPrinter (env : Env κ) (var : VarEnv κ) (types : TypeEnv)
    (varName : Option CString) (s : Debugger κ) :
    (handleGetLocalVar env (var.withPrinter env types) varName).run s =
      match (printLocalVar env var types varName).run s with
      | (.ok (some _), t) => (.ok (some ()), t)
      | (.ok none, t) => (.ok none, t)
      | (.error code, t) => (.error code, t)
      | (.pending, t) => (.pending, t) := by
  have hscope : localScope env (var.withPrinter env types) = localScope env var := rfl
  unfold handleGetLocalVar printLocalVar
  rw [run_call_bind, run_call_bind, hscope]
  rcases localScope env var s with ⟨⟨subProgDie, pc, locInfo⟩ | _ | _, t⟩
  · have hname : (var.withPrinter env types).undefName = var.undefName := rfl
    dsimp only
    rw [hname]
    rcases getLocalVarFromName var.undefName varName pc subProgDie with
      _ | ⟨_ | _ | _, _ | varDie⟩
    case ok.some.ok.some => exact printStage_withPrinter env var types varName locInfo varDie t
    all_goals rfl
  · rfl
  · rfl

end VDebugger
