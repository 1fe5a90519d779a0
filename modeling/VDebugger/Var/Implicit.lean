import VDebugger.LocExpr.Locations
import VDebugger.LocExpr.RegisterOps
import VDebugger.Var.Print
import VDebugger.Var.Tokens

namespace VDebugger

open Machine HandlerM Reference

variable {κ : Type} {env : Env κ} {var : VarEnv κ} {types : TypeEnv}

-- The modifiers that the printer steps over.
def TypeTag.isModifier : TypeTag → Bool
  | .DW_TAG_atomic_type | .DW_TAG_const_type | .DW_TAG_immutable_type | .DW_TAG_packed_type
  | .DW_TAG_pointer_type | .DW_TAG_reference_type | .DW_TAG_restrict_type
  | .DW_TAG_rvalue_reference_type | .DW_TAG_shared_type | .DW_TAG_volatile_type
  | .DW_TAG_typedef => true
  | _ => false

-- A chain of so many DIEs, all modifiers but the last, which is that of a base type.
inductive HasBaseType (types : TypeEnv) : Nat → DwRes UWORD → TypeDie → Prop
  | base {offset : UWORD} {typeDie : TypeDie} (hdie : types.offdie offset = .ok typeDie)
      (htag : typeDie.tag = .ok .DW_TAG_base_type) : HasBaseType types 1 (.ok offset) typeDie
  | modifier {offset : UWORD} {typeDie base : TypeDie} {tag : TypeTag} {depth : Nat}
      (hdie : types.offdie offset = .ok typeDie) (htag : typeDie.tag = .ok tag)
      (hmodifier : tag.isModifier = true) (hrest : HasBaseType types depth typeDie.typeOffset base) :
      HasBaseType types (depth + 1) (.ok offset) base

section Chain

variable {offset : UWORD} {typeDie : TypeDie} {tag : TypeTag} {fuel : Nat}

theorem sprintVariableDieVal_base (hdie : types.offdie offset = .ok typeDie)
    (htag : typeDie.tag = .ok .DW_TAG_base_type) (varAddr : UWORD) :
    sprintVariableDieVal env var types (fuel + 1) (.ok offset) varAddr =
      sprintVarDieGivenBase env types varAddr typeDie := by
  simp only [sprintVariableDieVal, DwRes.orReturn_ok_bind, hdie, htag]

theorem sprintVariableDieVal_modifier (hdie : types.offdie offset = .ok typeDie)
    (htag : typeDie.tag = .ok tag) (hmodifier : tag.isModifier = true) (varAddr : UWORD) :
    sprintVariableDieVal env var types (fuel + 1) (.ok offset) varAddr =
      sprintVariableDieVal env var types fuel typeDie.typeOffset varAddr := by
  simp only [sprintVariableDieVal, DwRes.orReturn_ok_bind, hdie, htag]
  cases tag <;> first | rfl | exact nomatch hmodifier

theorem HasBaseType.sprintVariableDieVal_eq {depth : Nat} {typeOffset : DwRes UWORD}
    {base : TypeDie} (h : HasBaseType types depth typeOffset base) (hfuel : depth ≤ fuel)
    (varAddr : UWORD) :
    sprintVariableDieVal env var types fuel typeOffset varAddr =
      sprintVarDieGivenBase env types varAddr base := by
  induction h generalizing fuel with
  | base hdie htag =>
      obtain ⟨fuel, rfl⟩ : ∃ n, fuel = n + 1 := ⟨fuel - 1, by omega⟩
      exact sprintVariableDieVal_base hdie htag varAddr
  | modifier hdie htag hmodifier _ ih =>
      obtain ⟨fuel, rfl⟩ : ∃ n, fuel = n + 1 := ⟨fuel - 1, by omega⟩
      rw [sprintVariableDieVal_modifier hdie htag hmodifier]
      exact ih (by omega)

end Chain

def DwRes.value? {α : Type} : DwRes α → Option α
  | .ok value => some value
  | .noEntry | .error => none

-- Whether there is a text depends on the type only.
theorem decodeBase_isSome (types : TypeEnv) (base : TypeDie) (data other : UWORD) :
    (decodeBase types base data).value?.isSome = (decodeBase types base other).value?.isSome := by
  have hformat (encoding : Encoding) (data other : UWORD) :
      (formatBase types encoding data).value?.isSome =
        (formatBase types encoding other).value?.isSome := by
    cases encoding <;> simp only [formatBase, DwRes.value?, Option.isSome_some]
  unfold decodeBase
  cases base.encoding with
  | noEntry => rfl
  | error => rfl
  | ok encoding =>
      dsimp only
      cases base.bytesize with
      | noEntry => exact hformat encoding data other
      | error => rfl
      | ok byteSize =>
          dsimp only
          split_ifs
          · rfl
          · exact hformat encoding _ _
          · exact hformat encoding data other

-- The mask of a type without bytes leaves nothing of the word.
theorem decodeBase_no_bytes (types : TypeEnv) {base : TypeDie} (hsize : base.bytesize = .ok 0)
    (data other : UWORD) : decodeBase types base data = decodeBase types base other := by
  have hmask (word : UWORD) : word &&& (((1 : UWORD) <<< (8 * (0 : UWORD).toNat)) - 1) = 0 := by
    simp
  have hsmall : ¬(0 : UWORD) > 8 ∧ (0 : UWORD) < 8 := by decide
  unfold decodeBase
  rw [hsize]
  simp only [if_neg hsmall.1, if_pos hsmall.2, hmask]

-- DW_OP_stack_value leaves the stack as it is.
theorem LastExecuted.stackValue {env : ExprEnv} {ops : List (DwRes LocOp)} {index passes : Nat}
    {start t u : LocExpr} {loc : LocOp} (h : LastExecuted env ops index start passes loc t u)
    (hop : loc.op = .DW_OP_stack_value) : u = t := by
  obtain ⟨i, next, -, hget, hpass, -⟩ := h.pass
  have hresult : parseOpcode env loc t = (.ok (DwExprAction.RESULT_VALUE.code, 0), t) := by
    unfold parseOpcode
    rw [hop]
    rfl
  rw [evalPass_zero hget (evalOp_of_result hresult (by decide))] at hpass
  cases hpass
  rfl

section Printed

variable {s t : Debugger κ} {subProgDie varDie : Die} {pc : UWORD} {locInfo : LocInfo}
  {name : CString}

-- The line that `handle_get_local_var` writes, where the location comes to a word.
theorem printLocalVar_value (env : Env κ) (types : TypeEnv)
    (hscope : localScope env var s = (.ok (subProgDie, pc, locInfo), t))
    (hfound : getLocalVarFromName var.undefName (some name) pc subProgDie =
      some (.ok (), some varDie))
    (hline : var.declLine varDie ≠ .error) {top : UWORD}
    (hlocation : varLocation var locInfo (some varDie) .DW_AT_location t = (.ok top, t)) :
    ((printLocalVar env var types (some name)).run s).1.value?.join =
      (sprintVariableDieVal env var types types.fuel (types.typeOffset varDie) top t).1.value?.map
        (localVarLine name (var.declLine varDie).lineOrZero) := by
  unfold printLocalVar
  rw [run_call_bind, hscope]
  dsimp only
  rw [hfound]
  dsimp only
  unfold printStage
  rw [run_rejectIf_of_not hline, run_call_bind, hlocation]
  dsimp only
  rw [run_call_bind]
  rcases sprintVariableDieVal env var types types.fuel (types.typeOffset varDie) top t with
    ⟨_ | _ | _, u⟩ <;> rfl

theorem orReturn_value {α : Type} (res : DwRes α) (s : Debugger κ) :
    (res.orReturn s).1.value? = res.value? := by
  cases res <;> rfl

-- A variable of a base type prints what is read at its address.
theorem sprintVarDieGivenBase_value (env : Env κ) (types : TypeEnv) (base : TypeDie) (addr : UWORD)
    (s : Debugger κ) :
    (sprintVarDieGivenBase env types addr base s).1.value? =
      if env.fault s.log.length then none
      else (decodeBase types base (readWord s.debugee.mem addr.toNat)).value? := by
  unfold sprintVarDieGivenBase
  cases hfault : env.fault s.log.length with
  | true =>
      rw [Action.bind_of_error (ptracePeekData_of_refused hfault addr)]
      rfl
  | false =>
      rw [Action.bind_of_ok (ptracePeekData_of_granted hfault addr), orReturn_value]
      rfl

theorem HasBaseType.printed_value {depth : Nat} {base : TypeDie}
    (h : HasBaseType types depth (types.typeOffset varDie) base) (hdepth : depth ≤ types.fuel)
    (env : Env κ) (var : VarEnv κ) (addr : UWORD) (s : Debugger κ) :
    (sprintVariableDieVal env var types types.fuel (types.typeOffset varDie) addr s).1.value? =
      if env.fault s.log.length then none
      else (decodeBase types base (readWord s.debugee.mem addr.toNat)).value? := by
  rw [h.sprintVariableDieVal_eq hdepth, sprintVarDieGivenBase_value]

-- Another word at the address is another value.
theorem HasBaseType.written_value {depth : Nat} {base : TypeDie}
    (h : HasBaseType types depth (types.typeOffset varDie) base) (hdepth : depth ≤ types.fuel)
    (env : Env κ) (var : VarEnv κ) (addr : UWORD) (s : Debugger κ) (word : UWORD) :
    (sprintVariableDieVal env var types types.fuel (types.typeOffset varDie) addr
      (s.withMem (writeWord s.debugee.mem addr.toNat word))).1.value? =
        if env.fault s.log.length then none else (decodeBase types base word).value? := by
  refine (h.printed_value hdepth env var addr _).trans ?_
  simp only [Debugger.withMem, readWord_writeWord]

-- The word on the stack is what `get_var_location` hands on.
theorem varLocation_stackValue {entries : List (DwRes LocDesc)} {ops : List (DwRes LocOp)}
    (hloclist : var.loclist varDie .DW_AT_location = .ok entries)
    (hsearch : searchLocDesc locInfo.pcOffset entries [] locInfo.startExpr =
      (.ok ops, locInfo.startExpr))
    {passes : Nat} {loc : LocOp} {before after : LocExpr}
    (hlast : LastExecuted (var.expr t) ops 0 locInfo.startExpr passes loc before after)
    (hop : loc.op = .DW_OP_stack_value) (hpasses : passes < var.fuel)
    {top : UWORD} {rest : Stack} (hstack : Holds locInfo before (top :: rest)) :
    varLocation var locInfo (some varDie) .DW_AT_location t = (.ok top, t) := by
  have hvalue := hlast.evaluateExpr_eq (by rwa [hlast.stackValue hop]) hpasses
  have hrun : (getVarLocation (var.expr t) var.fuel (.ok entries) locInfo.freshExpr).1 =
      .ok top := by
    rw [getVarLocation_of_search hsearch]
    exact congrArg Prod.fst (Action.orFail_eq_ok.mpr (Prod.ext hvalue rfl))
  rw [← hloclist] at hrun
  exact Prod.ext hrun rfl

-- The value in the line is the text of `top`, and so it is with any word in memory at that
-- address when it is printed.
structure PrintsWord (env : Env κ) (var : VarEnv κ) (types : TypeEnv) (name : CString)
    (varDie : Die) (base : TypeDie) (top : UWORD) (s t : Debugger κ) : Prop where
  line : ((printLocalVar env var types (some name)).run s).1.value?.join =
    (decodeBase types base top).value?.map (localVarLine name (var.declLine varDie).lineOrZero)
  independent : ∀ word,
    (sprintVariableDieVal env var types types.fuel (types.typeOffset varDie) top
      (t.withMem (writeWord t.debugee.mem top.toNat word))).1.value? =
        (decodeBase types base top).value?

-- The word that DW_OP_stack_value leaves is taken for an address all the same.
theorem stack_value_printed_iff
    (hscope : localScope env var s = (.ok (subProgDie, pc, locInfo), t))
    (hfound : getLocalVarFromName var.undefName (some name) pc subProgDie =
      some (.ok (), some varDie))
    (hline : var.declLine varDie ≠ .error)
    {entries : List (DwRes LocDesc)} {ops : List (DwRes LocOp)}
    (hloclist : var.loclist varDie .DW_AT_location = .ok entries)
    (hsearch : searchLocDesc locInfo.pcOffset entries [] locInfo.startExpr =
      (.ok ops, locInfo.startExpr))
    {passes : Nat} {loc : LocOp} {before after : LocExpr}
    (hlast : LastExecuted (var.expr t) ops 0 locInfo.startExpr passes loc before after)
    (hop : loc.op = .DW_OP_stack_value) (hpasses : passes < var.fuel)
    {top : UWORD} {rest : Stack} (hstack : Holds locInfo before (top :: rest))
    {depth : Nat} {base : TypeDie} (htype : HasBaseType types depth (types.typeOffset varDie) base)
    (hdepth : depth ≤ types.fuel) :
    PrintsWord env var types name varDie base top s t ↔
      (decodeBase types base top).value? = none ∨
        env.fault t.log.length = false ∧
          ∀ word, (decodeBase types base word).value? = (decodeBase types base top).value? := by
  have hlocation := varLocation_stackValue hloclist hsearch hlast hop hpasses hstack
  have hprinted := printLocalVar_value env types hscope hfound hline hlocation
  rw [htype.printed_value hdepth env var top t] at hprinted
  have hwritten := htype.written_value hdepth env var top t
  constructor
  · intro h
    cases hdecode : (decodeBase types base top).value? with
    | none => exact .inl rfl
    | some text =>
        have hsame (word : UWORD) := (hwritten word).symm.trans (h.independent word)
        rw [hdecode] at hsame
        cases hfault : env.fault t.log.length with
        | true =>
            rw [hfault] at hsame
            exact nomatch hsame 0
        | false =>
            rw [hfault] at hsame
            exact .inr ⟨rfl, hsame⟩
  · rintro (hnone | ⟨hfault, hsame⟩)
    · have hall (word : UWORD) : (decodeBase types base word).value? = none := by
        have hdecodes := decodeBase_isSome types base word top
        rw [hnone] at hdecodes
        exact Option.not_isSome_iff_eq_none.mp (by simp [hdecodes])
      refine ⟨?_, fun word => ?_⟩
      · rw [hprinted, hall, hnone, ite_self]
      · rw [hwritten, hall, hnone, ite_self]
    · rw [hfault] at hprinted hwritten
      refine ⟨?_, fun word => ?_⟩
      · rw [hprinted, if_neg (by decide), hsame]
      · rw [hwritten, if_neg (by decide), hsame]

end Printed

section Examples

def implicitFive : List (DwRes LocOp) :=
  [.ok { op := .DW_OP_lit 5 }, .ok { op := .DW_OP_stack_value }]

-- Each variable is 5 and stands nowhere in memory.
def implicitVarEnv : VarEnv Unit :=
  { cfaVarEnv with
    loclist := fun _ attr =>
      match attr with
      | .DW_AT_frame_base => .ok [.ok ⟨0, 0x3000, [.ok { op := .DW_OP_call_frame_cfa }]⟩]
      | .DW_AT_location => .ok [.ok ⟨0, 0x3000, implicitFive⟩] }

-- The unsigned type of so many bytes, for each variable.
def unsignedType (byteSize : UWORD) : TypeDie where
  tag := .ok .DW_TAG_base_type
  typeOffset := .noEntry
  encoding := .ok .DW_ATE_unsigned
  bytesize := .ok byteSize
  children := []

def unsignedTypes (byteSize : UWORD) : TypeEnv where
  typeOffset _ := .ok 0x40
  offdie _ := .ok (unsignedType byteSize)
  formatDouble _ := []
  undefLocation _ := ⟨.noEntry, .noEntry⟩
  fuel := 8

theorem unsignedTypes_base (byteSize : UWORD) :
    HasBaseType (unsignedTypes byteSize) 1 (.ok 0x40) (unsignedType byteSize) := .base rfl rfl

def variableX : Die :=
  .mk { tag := .DW_TAG_variable, lowpc := .noEntry, highpc := .noEntry, name := .ok "x".toList } []

def variableY : Die :=
  .mk { tag := .DW_TAG_variable, lowpc := .noEntry, highpc := .noEntry, name := .ok "y".toList } []

def functionOfX : Die :=
  .mk { tag := .DW_TAG_subprogram, lowpc := .ok 0x2000, highpc := .ok ⟨0x2100, true⟩ }
    [variableY, variableX]

def stoppedInFunction : LocInfo := { calleeRegsCurValue := { rip := 0x2000 } }

theorem localScope_inTwoLocals : localScope nopEnv implicitVarEnv inTwoLocals =
    (.ok (functionOfX, 0x2000, stoppedInFunction),
      (localScope nopEnv implicitVarEnv inTwoLocals).2) := rfl

-- The first pass pushes the word, and the second one leaves it.
theorem implicitFive_last :
    let before := (evalPass noEnv implicitFive 0 stoppedInFunction.startExpr).2
    Holds stoppedInFunction before [5] ∧
      LastExecuted noEnv implicitFive 0 stoppedInFunction.startExpr 1
        { op := .DW_OP_stack_value } before before :=
  ⟨⟨rfl, rfl, by decide, rfl, trivial⟩, ⟨1, 2, .pass .start (by decide) rfl, rfl, rfl, by decide⟩⟩

-- A type without bytes has one value only.
theorem implicit_without_bytes :
    PrintsWord nopEnv implicitVarEnv (unsignedTypes 0) "x".toList variableX (unsignedType 0) 5
      inTwoLocals (localScope nopEnv implicitVarEnv inTwoLocals).2 :=
  (stack_value_printed_iff localScope_inTwoLocals rfl (by decide) rfl rfl implicitFive_last.2 rfl
    (by decide) implicitFive_last.1 (unsignedTypes_base 0) (by decide)).mpr
      (.inr ⟨rfl, fun word => congrArg DwRes.value? (decodeBase_no_bytes _ rfl word 5)⟩)

-- The eight bytes at address 5 are printed for the value 5.
theorem implicit_dereferenced :
    let before := (evalPass noEnv implicitFive 0 stoppedInFunction.startExpr).2
    LastExecuted noEnv implicitFive 0 stoppedInFunction.startExpr 1
        { op := .DW_OP_stack_value } before before ∧ Holds stoppedInFunction before [5] ∧
      ((printLocalVar nopEnv implicitVarEnv (unsignedTypes 8) (some "x".toList)).run
        inTwoLocals).1.value?.join =
          some (localVarLine "x".toList 0 "10416984888683040912".toList) ∧
      ¬PrintsWord nopEnv implicitVarEnv (unsignedTypes 8) "x".toList variableX (unsignedType 8) 5
        inTwoLocals (localScope nopEnv implicitVarEnv inTwoLocals).2 := by
  have hprinted : ((printLocalVar nopEnv implicitVarEnv (unsignedTypes 8) (some "x".toList)).run
      inTwoLocals).1.value?.join =
        some (localVarLine "x".toList 0 "10416984888683040912".toList) := by
    decide +kernel
  refine ⟨implicitFive_last.2, implicitFive_last.1, hprinted, fun h => ?_⟩
  have hline := hprinted.symm.trans h.line
  revert hline
  decide +kernel

end Examples

end VDebugger
