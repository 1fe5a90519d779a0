import VDebugger.Handlers.Tokens

namespace VDebugger

open Machine HandlerM

variable {κ : Type} {env : Env κ} {var : VarEnv κ}

-- How a walk over the DIEs of a function ends that has no name to look for.
inductive NameWalk where
  | passed
  | comesToName
  | noEntry
  | error
  deriving DecidableEq, Repr

mutual

-- A name stands in each variable and parameter, and the walk goes into the blocks that
-- contain the pc.
def nameWalk (pc : UWORD) : Die → NameWalk
  | .mk attrs children =>
      match attrs.tag with
      | .DW_TAG_variable | .DW_TAG_formal_parameter =>
          match attrs.name with
          | .error => .error
          | .noEntry | .ok _ => .comesToName
      | .DW_TAG_lexical_block | .DW_TAG_subprogram | .DW_TAG_inlined_subroutine =>
          match getLowHighPcFromDie (.mk attrs children) with
          | .noEntry => .noEntry
          | .error => .error
          | .ok (low, high) => if low > pc || high < pc then .passed else nameWalkChildren pc children
      | _ => .passed

def nameWalkChildren (pc : UWORD) : List Die → NameWalk
  | [] => .passed
  | child :: siblings =>
      match nameWalk pc child with
      | .passed => nameWalkSiblings pc siblings
      | result => result

def nameWalkSiblings (pc : UWORD) : List Die → NameWalk
  | [] => .passed
  | die :: siblings =>
      match nameWalk pc die with
      | .passed => nameWalkSiblings pc siblings
      | .noEntry => .passed
      | result => result

end

-- What `get_local_var_from_name` returns for a null pointer where the walk ends so.
def NameWalk.result : NameWalk → Option (DwRes Unit × Option Die)
  | .passed => some (.ok (), none)
  | .comesToName => none
  | .noEntry => some (.noEntry, none)
  | .error => some (.error, none)

mutual

theorem getLocalVarFromName_null (undef : CString) (pc : UWORD) (die : Die) :
    getLocalVarFromName undef none pc die = (nameWalk pc die).result := by
  obtain ⟨attrs, children⟩ := die
  have hchildren := localVarChildren_null undef pc children
  unfold getLocalVarFromName nameWalk
  cases attrs.tag
  case DW_TAG_variable | DW_TAG_formal_parameter => cases attrs.name <;> rfl
  case DW_TAG_lexical_block | DW_TAG_subprogram | DW_TAG_inlined_subroutine =>
    rcases getLowHighPcFromDie (.mk attrs children) with ⟨low, high⟩ | _ | _
    · dsimp only
      split_ifs
      · rfl
      · exact hchildren
    · rfl
    · rfl
  all_goals rfl

theorem localVarChildren_null (undef : CString) (pc : UWORD) (dies : List Die) :
    localVarChildren undef none pc dies = (nameWalkChildren pc dies).result := by
  cases dies with
  | nil => rfl
  | cons child siblings =>
      have hsiblings := localVarSiblings_null undef pc siblings
      unfold localVarChildren nameWalkChildren
      rw [getLocalVarFromName_null undef pc child]
      cases nameWalk pc child with
      | passed => exact hsiblings
      | comesToName => rfl
      | noEntry => rfl
      | error => rfl

theorem localVarSiblings_null (undef : CString) (pc : UWORD) (dies : List Die) :
    localVarSiblings undef none pc dies = (nameWalkSiblings pc dies).result := by
  cases dies with
  | nil => rfl
  | cons die siblings =>
      have hsiblings := localVarSiblings_null undef pc siblings
      unfold localVarSiblings nameWalkSiblings
      rw [getLocalVarFromName_null undef pc die]
      cases nameWalk pc die with
      | passed => exact hsiblings
      | comesToName => rfl
      | noEntry => rfl
      | error => rfl

end

mutual

-- With a name, every comparison has two strings.
theorem getLocalVarFromName_some (undef name : CString) (pc : UWORD) (die : Die) :
    getLocalVarFromName undef (some name) pc die ≠ none := by
  obtain ⟨attrs, children⟩ := die
  have hchildren := localVarChildren_some undef name pc children
  unfold getLocalVarFromName
  cases attrs.tag
  case DW_TAG_variable | DW_TAG_formal_parameter => cases attrs.name <;> exact Option.some_ne_none _
  case DW_TAG_lexical_block | DW_TAG_subprogram | DW_TAG_inlined_subroutine =>
    rcases getLowHighPcFromDie (.mk attrs children) with ⟨low, high⟩ | _ | _
    · dsimp only
      split_ifs
      · exact Option.some_ne_none _
      · exact hchildren
    · exact Option.some_ne_none _
    · exact Option.some_ne_none _
  all_goals exact Option.some_ne_none _

theorem localVarChildren_some (undef name : CString) (pc : UWORD) (dies : List Die) :
    localVarChildren undef (some name) pc dies ≠ none := by
  cases dies with
  | nil => exact Option.some_ne_none _
  | cons child siblings =>
      have hchild := getLocalVarFromName_some undef name pc child
      have hsiblings := localVarSiblings_some undef name pc siblings
      unfold localVarChildren
      split
      · exact hsiblings
      · exact hchild

theorem localVarSiblings_some (undef name : CString) (pc : UWORD) (dies : List Die) :
    localVarSiblings undef (some name) pc dies ≠ none := by
  cases dies with
  | nil => exact Option.some_ne_none _
  | cons die siblings =>
      have hdie := getLocalVarFromName_some undef name pc die
      have hsiblings := localVarSiblings_some undef name pc siblings
      unfold localVarSiblings
      split
      · exact hsiblings
      · exact Option.some_ne_none _
      · exact hdie

end

-- The result codes of the calls up to the walk

theorem pushIgnored_nonzeroCodes (tkn : UWORD) : (pushIgnored tkn).NonzeroCodes :=
  .bind (.attempt _) fun _ => .pure _

theorem searchLocDesc_nonzeroCodes (offset : UWORD) (descs : List (DwRes LocDesc))
    (last : List (DwRes LocOp)) : (searchLocDesc offset descs last).NonzeroCodes := by
  induction descs generalizing last with
  | nil => exact .pure last
  | cons desc rest ih =>
      cases desc with
      | ok desc =>
          unfold searchLocDesc
          split_ifs
          · exact .pure desc.ops
          · exact ih desc.ops
      | noEntry => exact .fail (by decide)
      | error => exact .fail (by decide)

theorem getVarLocation_nonzeroCodes (env : ExprEnv) (fuel : Nat)
    (loclist : DwRes (List (DwRes LocDesc))) : (getVarLocation env fuel loclist).NonzeroCodes := by
  apply Action.NonzeroCodes.bind .fetch
  intro s
  apply Action.NonzeroCodes.bind
  · unfold pushInitial
    split_ifs
    · exact pushIgnored_nonzeroCodes _
    · exact .pure _
  · intro _
    cases loclist with
    | ok descs => exact .bind (searchLocDesc_nonzeroCodes _ descs []) fun _ => .orFail _ (by decide)
    | noEntry => exact .fail (by decide)
    | error => exact .fail (by decide)

theorem varLocation_nonzeroCodes (var : VarEnv κ) (locInfo : LocInfo) (die : Option Die)
    (attr : LocAttr) : (varLocation var locInfo die attr).NonzeroCodes :=
  fun s => getVarLocation_nonzeroCodes (var.expr s) var.fuel _ locInfo.freshExpr

theorem initLocInfo_nonzeroCodes (env : Env κ) (var : VarEnv κ) (locInfo : LocInfo) :
    (initLocInfo env var locInfo).NonzeroCodes := by
  apply Action.NonzeroCodes.bind (getRegsStruct_nonzeroCodes env)
  intro regs
  apply Action.NonzeroCodes.bind .fetch
  intro s
  apply Action.NonzeroCodes.bind (.failIf (by decide))
  intro _
  apply Action.NonzeroCodes.bind (.failIf (by decide))
  intro _
  split_ifs
  · exact .pure _
  · apply Action.NonzeroCodes.bind (.failIf (by decide))
    intro _
    exact .bind (.failIf (by decide)) fun _ => .pure _

theorem stoppedSubProg_nonzeroCodes (env : Env κ) (var : VarEnv κ) :
    (stoppedSubProg env var).NonzeroCodes := by
  apply Action.NonzeroCodes.bind .fetch
  intro s
  apply Action.NonzeroCodes.bind (initLocInfo_nonzeroCodes env var _)
  intro locInfo
  apply Action.NonzeroCodes.bind (.bind (getRegsStruct_nonzeroCodes env) fun _ => .pure _)
  intro pc
  apply Action.NonzeroCodes.bind .fetch
  intro s
  generalize getSubProgDieFromAddr (pc - s.loadAddress) s.dwarfDbg = found
  apply Action.NonzeroCodes.bind (.change _)
  intro _
  exact .bind (.failIf (by decide)) fun _ => .pure _

theorem localScope_nonzeroCodes (env : Env κ) (var : VarEnv κ) :
    (localScope env var).NonzeroCodes := by
  apply Action.NonzeroCodes.bind (stoppedSubProg_nonzeroCodes env var)
  rintro ⟨subProgDie, pc, locInfo⟩
  apply Action.NonzeroCodes.bind (varLocation_nonzeroCodes var locInfo _ _)
  intro frameBase
  cases subProgDie with
  | none => exact .fail (by decide)
  | some die => exact .pure _

theorem handleGetLocalVar_some_noNull (env : Env κ) (var : VarEnv κ) (name : CString) :
    NoNull (handleGetLocalVar env var (some name)) := by
  apply NoNull.bind (NoNull.call _)
  rintro ⟨die, pc, locInfo⟩
  have hwalk := getLocalVarFromName_some var.undefName name pc die
  dsimp only
  generalize getLocalVarFromName var.undefName (some name) pc die = found at hwalk ⊢
  rcases found with _ | ⟨_ | _ | _, _ | varDie⟩
  · exact absurd rfl hwalk
  · exact NoNull.call _
  · apply NoNull.rejectIf
    intro _
    exact NoNull.bind (NoNull.call _) fun _ => NoNull.call _
  all_goals exact NoNull.call _

-- Without a name, the outcome is that of the scope, and else that of the walk.
theorem handleGetLocalVar_null (s : Debugger κ) :
    ((handleGetLocalVar env var none).run s).1 = match (localScope env var s).1 with
      | .error code => .error code
      | .pending => .pending
      | .ok (die, pc, _) => match nameWalk pc die with
        | .passed | .error => .error 1
        | .comesToName => .ok none
        | .noEntry => .error (-1) := by
  unfold handleGetLocalVar
  rw [run_bind_apply, run_call]
  rcases localScope env var s with ⟨⟨die, pc, locInfo⟩ | _ | _, t⟩
  · dsimp only
    rw [getLocalVarFromName_null]
    cases nameWalk pc die <;> rfl
  · rfl
  · rfl

def VarEnv.withFuel (var : VarEnv κ) (fuel : Nat) : VarEnv κ := { var with fuel }

-- `var get local` without a name.
def LocalNameAbsent (tokens : List CString) : Prop :=
  tokens = ["get".toList, "local".toList] ∨ tokens = ["get&".toList, "local".toList]

-- The line without a name, where the scope is found and the walk in it comes to a
-- name, or where the frame base of the function never comes to a value.
def LocalNameMissing (env : Env κ) (var : VarEnv κ) (tokens : List CString) (s : Debugger κ) :
    Prop :=
  LocalNameAbsent tokens ∧
    ((∃ fuel die pc locInfo, (localScope env (var.withFuel fuel) s).1 = .ok (die, pc, locInfo) ∧
        nameWalk pc die = .comesToName) ∨
      ∀ fuel, (localScope env (var.withFuel fuel) s).1 = .pending)

-- No null pointer is passed on, and a command without a token that it takes returns a
-- nonzero result.
def MissingRejected (env : Env κ) (var : VarEnv κ) (backtrace : DebuggerM κ Unit) (cmnd : COMMAND)
    (tokens : List CString) (s : Debugger κ) : Prop :=
  (∀ fuel, ((handleTokens env (var.withFuel fuel) backtrace cmnd tokens).run s).1 ≠ .ok none) ∧
    (tokens.length < requiredTokens cmnd tokens →
      ∃ fuel code, code ≠ 0 ∧
        ((handleTokens env (var.withFuel fuel) backtrace cmnd tokens).run s).1 = .error code)

theorem varOption_get {name : CString}
    (h : ¬(varOption name ≠ .GET_VAR_ADDR_OPTION ∧ varOption name ≠ .GET_VAR_VALUE_OPTION)) :
    name = "get".toList ∨ name = "get&".toList := by
  unfold varOption at h
  split_ifs at h with haddr hvalue
  · exact .inr haddr
  · exact .inl hvalue
  all_goals simp at h

theorem varOption_local {name : CString} (h : varOption name = .LOCAL_VAR_OPTION) :
    name = "local".toList := by
  unfold varOption at h
  split_ifs at h with _ _ _ _ hlocal
  exact hlocal

theorem handleVar_op (env : Env κ) (var : VarEnv κ) (name op : CString) (rest : List CString) :
    handleVar env var (name :: op :: rest) = (do
      rejectIf (varOption name ≠ .GET_VAR_ADDR_OPTION ∧ varOption name ≠ .GET_VAR_VALUE_OPTION) 1
      match varOption op with
      | .PARAM_VAR_OPTION => call (var.handleParamVar (varOption name))
      | .LOCAL_VAR_OPTION => handleGetLocalVar env var rest[0]?
      | _ => reject 1) := rfl

theorem handleVar_noOp (env : Env κ) (var : VarEnv κ) {tokens : List CString}
    (h : tokens.length < 2) : Rejects (handleVar env var tokens) := by
  rcases tokens with _ | ⟨name, _ | ⟨op, rest⟩⟩
  · exact Rejects.rejectIf rfl (by decide)
  · apply Rejects.unless (by decide)
    intro _
    apply Rejects.bind (x := matchVarOption (some name)) fun s => .inl ⟨_, rfl⟩
    intro mode
    exact Rejects.unless (by decide) fun _ => Rejects.rejectIf rfl (by decide)
  · simp only [List.length_cons] at h
    omega

-- Another line without a token is rejected.
theorem handleVar_other (env : Env κ) (var : VarEnv κ) {tokens : List CString}
    (h : ¬LocalNameAbsent tokens) :
    NoNull (handleVar env var tokens) ∧
      (tokens.length < requiredTokens .VAR tokens → Rejects (handleVar env var tokens)) := by
  rcases tokens with _ | ⟨name, _ | ⟨op, rest⟩⟩
  · have hnone : Rejects (handleVar env var []) := handleVar_noOp env var (by decide)
    exact ⟨hnone.noNull, fun _ => hnone⟩
  · have hnone : Rejects (handleVar env var [name]) := handleVar_noOp env var (by simp)
    exact ⟨hnone.noNull, fun _ => hnone⟩
  rw [handleVar_op]
  by_cases hname : varOption name ≠ .GET_VAR_ADDR_OPTION ∧ varOption name ≠ .GET_VAR_VALUE_OPTION
  · exact ⟨NoNull.rejectIf fun h => absurd hname h, fun _ => Rejects.rejectIf hname (by decide)⟩
  by_cases hlocal : op = "local".toList
  · subst hlocal
    cases rest with
    | nil =>
        rcases varOption_get hname with rfl | rfl
        · exact absurd (.inl rfl) h
        · exact absurd (.inr rfl) h
    | cons arg rest =>
        refine ⟨NoNull.rejectIf fun _ => handleGetLocalVar_some_noNull env var arg, ?_⟩
        intro hshort
        simp [requiredTokens] at hshort
        omega
  · constructor
    · apply NoNull.rejectIf
      intro _
      cases hop : varOption op
      case LOCAL_VAR_OPTION => exact absurd (varOption_local hop) hlocal
      all_goals exact NoNull.call _
    · intro hshort
      have hrequired : requiredTokens .VAR (name :: op :: rest) = 2 :=
        if_neg fun h => hlocal (Option.some.inj h)
      rw [hrequired, List.length_cons, List.length_cons] at hshort
      omega

theorem handleVar_local (env : Env κ) (var : VarEnv κ) {tokens : List CString}
    (h : LocalNameAbsent tokens) :
    handleVar env var tokens = handleGetLocalVar env var none := by
  rcases h with rfl | rfl <;> rfl

theorem missingRejected_of_noNull {backtrace : DebuggerM κ Unit} {cmnd : COMMAND}
    {tokens : List CString} {s : Debugger κ}
    (hnull : ∀ fuel, NoNull (handleTokens env (var.withFuel fuel) backtrace cmnd tokens))
    (hshort : tokens.length < requiredTokens cmnd tokens →
      Rejects (handleTokens env (var.withFuel 0) backtrace cmnd tokens)) :
    MissingRejected env var backtrace cmnd tokens s :=
  ⟨fun fuel => hnull fuel s, fun h => ⟨0, hshort h s⟩⟩

theorem localName_rejected_iff {backtrace : DebuggerM κ Unit} {tokens : List CString}
    (h : LocalNameAbsent tokens) (s : Debugger κ) :
    MissingRejected env var backtrace .VAR tokens s ↔ ¬LocalNameMissing env var tokens s := by
  have hshort : tokens.length < requiredTokens .VAR tokens := by
    rcases h with rfl | rfl <;> decide
  have hrun (fuel : Nat) : handleTokens env (var.withFuel fuel) backtrace .VAR tokens =
      handleGetLocalVar env (var.withFuel fuel) none := handleVar_local env _ h
  constructor
  · rintro ⟨hnull, hrejects⟩ ⟨-, ⟨fuel, die, pc, locInfo, hscope, hwalk⟩ | hpending⟩
    · apply hnull fuel
      rw [hrun, handleGetLocalVar_null, hscope]
      dsimp only
      rw [hwalk]
    · obtain ⟨fuel, code, -, hcode⟩ := hrejects hshort
      rw [hrun, handleGetLocalVar_null, hpending fuel] at hcode
      exact nomatch hcode
  · intro hpresent
    constructor
    · intro fuel hnull
      rw [hrun, handleGetLocalVar_null] at hnull
      cases hscope : (localScope env (var.withFuel fuel) s).1 with
      | ok scope =>
          obtain ⟨die, pc, locInfo⟩ := scope
          rw [hscope] at hnull
          cases hwalk : nameWalk pc die <;> simp [hwalk] at hnull
          exact hpresent ⟨h, .inl ⟨fuel, die, pc, locInfo, hscope, hwalk⟩⟩
      | error code => simp [hscope] at hnull
      | pending => simp [hscope] at hnull
    · intro _
      have hreturns : ∃ fuel, (localScope env (var.withFuel fuel) s).1 ≠ .pending := by
        by_contra hpending
        push Not at hpending
        exact hpresent ⟨h, .inr hpending⟩
      obtain ⟨fuel, hfuel⟩ := hreturns
      refine ⟨fuel, ?_⟩
      rw [hrun, handleGetLocalVar_null]
      cases hscope : (localScope env (var.withFuel fuel) s).1 with
      | ok scope =>
          obtain ⟨die, pc, locInfo⟩ := scope
          cases hwalk : nameWalk pc die with
          | passed => exact ⟨1, by decide, by simp [hwalk]⟩
          | comesToName => exact absurd ⟨h, .inl ⟨fuel, die, pc, locInfo, hscope, hwalk⟩⟩ hpresent
          | noEntry => exact ⟨-1, by decide, by simp [hwalk]⟩
          | error => exact ⟨1, by decide, by simp [hwalk]⟩
      | error code => exact ⟨code, localScope_nonzeroCodes env _ s code hscope, rfl⟩
      | pending => exact absurd hscope hfuel

theorem missing_rejected_iff (env : Env κ) (var : VarEnv κ) (backtrace : DebuggerM κ Unit)
    (cmnd : COMMAND) (tokens : List CString) (s : Debugger κ) :
    MissingRejected env var backtrace cmnd tokens s ↔
      ¬(cmnd = .BREAKPOINT ∧ BreakLineMissing tokens) ∧
        ¬(cmnd = .VAR ∧ LocalNameMissing env var tokens s) := by
  cases cmnd <;>
    simp only [true_and, reduceCtorEq, false_and, not_false_eq_true, and_true, iff_true]
  case BREAKPOINT =>
    constructor
    · rintro ⟨hnull, -⟩ hmissing
      apply hnull 0
      unfold handleTokens
      rw [handleBreakpoint_null hmissing]
    · intro h
      exact missingRejected_of_noNull (fun _ => handleBreakpoint_noNull env h)
        fun hshort => handleBreakpoint_short env hshort h
  case VAR =>
    by_cases hlocal : LocalNameAbsent tokens
    · exact localName_rejected_iff hlocal s
    · constructor
      · exact fun _ hmissing => hlocal hmissing.1
      · exact fun _ => missingRejected_of_noNull (fun _ => (handleVar_other env _ hlocal).1)
          (handleVar_other env _ hlocal).2
  case REG =>
    exact missingRejected_of_noNull (fun _ => handleRegister_noNull env tokens)
      (handleRegister_short env)
  case STEP =>
    exact missingRejected_of_noNull (fun _ => handleStep_noNull env tokens)
      (handleStep_short env)
  case WHERE =>
    exact missingRejected_of_noNull (fun _ => handleWhere_noNull env tokens)
      (handleWhere_short env)
  case PEEK_DATA =>
    exact missingRejected_of_noNull (fun _ => handlePeek_noNull env tokens)
      (handlePeek_short env)
  all_goals
    exact missingRejected_of_noNull (fun _ => NoNull.call _)
      fun hshort => absurd hshort (Nat.not_lt_zero _)

section Examples

-- The frame base of each function is the caller's stack pointer.
def cfaVarEnv : VarEnv Unit where
  unwGetRegIp _ := (0, 0)
  loclist _ _ := .ok [.ok ⟨0, 0x3000, [.ok { op := .DW_OP_call_frame_cfa }]⟩]
  declLine _ := .noEntry
  expr _ := { peek := fun _ => none, undef := fun _ => 0 }
  fuel := 8
  undefName := []
  sprintVariableDieVal _ _ := pure ()
  handleParamVar _ := pure ()

-- A function with the local variables `y` and `x`.
def twoLocals : DwarfDebug :=
  let attrs tag : DieAttrs := { tag, lowpc := .ok 0x2000, highpc := .ok ⟨0x2100, true⟩ }
  let local_var name : Die :=
    .mk { tag := .DW_TAG_variable, lowpc := .noEntry, highpc := .noEntry, name := .ok name } []
  let function := .mk (attrs .DW_TAG_subprogram) [local_var "y".toList, local_var "x".toList]
  ⟨[⟨.mk (attrs .DW_TAG_compile_unit) [function], .ok 1, .ok []⟩], 0⟩

def inTwoLocals : Debugger Unit :=
  { atPrompt (fun _ => 0x90) 0x2000 with dwarfDbg := twoLocals }

-- `break enable line /src/print.cpp` and `var get local`: the missing line number goes into
-- `strtoll`, and the missing name into `strcmp`.
theorem missing_tokens_used :
    (¬MissingRejected nopEnv cfaVarEnv (pure ()) .BREAKPOINT
        ["enable".toList, "line".toList, "/src/print.cpp".toList] inTwoLocals) ∧
      ¬MissingRejected nopEnv cfaVarEnv (pure ()) .VAR ["get".toList, "local".toList]
        inTwoLocals := by
  constructor
  · intro h
    have hnull := h.1 8
    revert hnull
    decide +kernel
  · intro h
    have hnull := h.1 8
    revert hnull
    decide +kernel

end Examples

end VDebugger
