import VDebugger.Var.Members

namespace VDebugger

open Machine

variable {κ : Type} {env : Env κ} {var : VarEnv κ} {types : TypeEnv}

section Evaluation

-- `get_var_location` from behind the push of the flag on.
def evalLoclist (env : ExprEnv) (fuel : Nat) (locInfo : LocInfo)
    (loclist : DwRes (List (DwRes LocDesc))) : ExprM UWORD :=
  match loclist with
  | .noEntry | .error => Action.fail 1
  | .ok descs => do
      let ops ← searchLocDesc (locInfo.calleeRegsCurValue.rip - locInfo.loadAddress) descs []
      (evaluateExpr env fuel ops 0).orFail 1

-- An evaluation that starts with this value alone on the stack.
def locationFrom (env : ExprEnv) (fuel : Nat) (locInfo : LocInfo) (start : UWORD)
    (loclist : DwRes (List (DwRes LocDesc))) : Outcome UWORD :=
  ((pushIgnored start >>= fun _ => evalLoclist env fuel locInfo loclist) locInfo.freshExpr).1

variable {locInfo : LocInfo} {s u : Debugger κ} {varAddr : UWORD} {member : MemberDie}

theorem getVarLocation_flag (env : ExprEnv) (fuel : Nat) (loclist : DwRes (List (DwRes LocDesc)))
    (hflag : locInfo.hInitial = 1) :
    (getVarLocation env fuel loclist locInfo.freshExpr).1 =
      locationFrom env fuel locInfo 1 loclist := by
  have hpush : pushInitial locInfo = pushIgnored 1 := by
    unfold pushInitial
    rw [hflag, if_pos (by decide)]
  unfold locationFrom
  rw [← hpush]
  rfl

-- The address for a member located by an expression: the code evaluates DW_AT_data_location,
-- from the flag, and where that fails the variable is not written.
def ExprAddr (env : Env κ) (var : VarEnv κ) (locInfo : LocInfo) (member : MemberDie)
    (s : Debugger κ) (addr : UWORD) : Prop :=
  locationFrom (var.expr s) var.fuel locInfo 1 member.dataLocation = .ok addr ∨
    (∃ code, locationFrom (var.expr s) var.fuel locInfo 1 member.dataLocation = .error code) ∧
      addr = env.undef s.log.length

theorem memberLocation_eq_ok (hflag : locInfo.hInitial = 1) {addr : UWORD} :
    memberLocation env var locInfo member s = (.ok addr, s) ↔
      ExprAddr env var locInfo member s addr := by
  unfold memberLocation ExprAddr
  rw [getVarLocation_flag _ _ _ hflag]
  cases locationFrom (var.expr s) var.fuel locInfo 1 member.dataLocation with
  | ok value => simp
  | error code => simp [eq_comm]
  | pending => simp

variable {attr : LocAttribute} {form : LocForm}

theorem isConstant_of_isExpression (h : form.isExpression = true) : form.isConstant = false := by
  cases form <;> first | rfl | cases h

theorem memberAddr_constant (hname : member.diename ≠ .noEntry)
    (hattr : member.locAttribute types s.log.length = attr) (hform : attr.whatform = .ok form)
    (hconstant : form.isConstant = true) :
    memberAddr env var types locInfo varAddr member s =
      (attr.formsdata.orReturn >>= fun offset => pure (some (offset + varAddr))) s := by
  rw [memberAddr_named hname, hattr, hform, DwRes.orReturn_ok_bind, if_pos hconstant]

theorem memberAddr_expression (hname : member.diename ≠ .noEntry)
    (hattr : member.locAttribute types s.log.length = attr) (hform : attr.whatform = .ok form)
    (hexpr : form.isExpression = true) :
    memberAddr env var types locInfo varAddr member s =
      (memberLocation env var locInfo member >>= fun addr => pure (some addr)) s := by
  rw [memberAddr_named hname, hattr, hform, DwRes.orReturn_ok_bind,
    if_neg (by simp [isConstant_of_isExpression hexpr]), if_pos hexpr]

theorem memberAddr_unsupported (hname : member.diename ≠ .noEntry)
    (hattr : member.locAttribute types s.log.length = attr) (hform : attr.whatform = .ok form)
    (hconstant : form.isConstant = false) (hexpr : form.isExpression = false) :
    memberAddr env var types locInfo varAddr member s = (.ok none, s) := by
  rw [memberAddr_named hname, hattr, hform, DwRes.orReturn_ok_bind, if_neg (by simp [hconstant]),
    if_neg (by simp [hexpr])]
  rfl

-- An address for a member located by an expression is one that is used for it.
theorem memberAddr_expression_eq_ok (hflag : locInfo.hInitial = 1)
    (hname : member.diename ≠ .noEntry)
    (hattr : member.locAttribute types s.log.length = attr) (hform : attr.whatform = .ok form)
    (hexpr : form.isExpression = true) {addr : UWORD} :
    memberAddr env var types locInfo varAddr member s = (.ok (some addr), s) ↔
      ExprAddr env var locInfo member s addr := by
  rw [memberAddr_expression hname hattr hform hexpr, ← memberLocation_eq_ok hflag,
    Action.bind_eq_ok]
  constructor
  · rintro ⟨value, t, hvalue, hsome⟩
    cases hsome
    exact hvalue
  · exact fun h => ⟨addr, s, h, rfl⟩

end Evaluation

section Complete

variable {locInfo : LocInfo} {s t u : Debugger κ} {varAddr : UWORD} {member : MemberDie}
  {exprOf : MemberDie → DwRes (List (DwRes LocDesc))}

-- Where a member's own DW_AT_data_member_location puts it, in the object at `varAddr`. Its
-- expressions are what `dwarf_get_loclist_c` gives for that attribute.
inductive OwnLocation (exprOf : MemberDie → DwRes (List (DwRes LocDesc))) (var : VarEnv κ)
    (locInfo : LocInfo) (varAddr : UWORD) (member : MemberDie) (s : Debugger κ) : UWORD → Prop
  | missing (hattr : member.dataMemberLocation = .noEntry) :
      OwnLocation exprOf var locInfo varAddr member s varAddr
  | constant {attr : LocAttribute} {form : LocForm} {offset : WORD}
      (hattr : member.dataMemberLocation = .ok attr) (hform : attr.whatform = .ok form)
      (hconstant : form.isConstant = true) (hoffset : attr.formsdata = .ok offset) :
      OwnLocation exprOf var locInfo varAddr member s (offset + varAddr)
  | expression {attr : LocAttribute} {form : LocForm} {addr : UWORD}
      (hattr : member.dataMemberLocation = .ok attr) (hform : attr.whatform = .ok form)
      (hexpr : form.isExpression = true)
      (haddr : locationFrom (var.expr s) var.fuel locInfo varAddr (exprOf member) = .ok addr) :
      OwnLocation exprOf var locInfo varAddr member s addr

-- The members that the loop puts where they are.
inductive Placed (exprOf : MemberDie → DwRes (List (DwRes LocDesc))) (env : Env κ)
    (var : VarEnv κ) (types : TypeEnv) (locInfo : LocInfo) (varAddr : UWORD) (member : MemberDie)
    (s : Debugger κ) : Prop
  | constant {attr : LocAttribute} {form : LocForm} (hname : member.diename ≠ .noEntry)
      (hattr : member.dataMemberLocation = .ok attr) (hform : attr.whatform = .ok form)
      (hconstant : form.isConstant = true)
  -- The expression that is evaluated comes to the same address.
  | expression {attr : LocAttribute} {form : LocForm} {addr : UWORD}
      (hname : member.diename ≠ .noEntry) (hattr : member.dataMemberLocation = .ok attr)
      (hform : attr.whatform = .ok form) (hexpr : form.isExpression = true)
      (haddr : ExprAddr env var locInfo member s addr)
      (hown : locationFrom (var.expr s) var.fuel locInfo varAddr (exprOf member) = .ok addr)
  -- The attribute that is not written happens to say what a missing one does.
  | undefConstant {form : LocForm} (hname : member.diename ≠ .noEntry)
      (hattr : member.dataMemberLocation = .noEntry)
      (hform : (types.undefLocation s.log.length).whatform = .ok form)
      (hconstant : form.isConstant = true)
      (hoffset : (types.undefLocation s.log.length).formsdata = .ok 0)
  | undefExpression {form : LocForm} (hname : member.diename ≠ .noEntry)
      (hattr : member.dataMemberLocation = .noEntry)
      (hform : (types.undefLocation s.log.length).whatform = .ok form)
      (hexpr : form.isExpression = true) (haddr : ExprAddr env var locInfo member s varAddr)
  -- A member without a name is taken for one at the start of the object.
  | unnamed (hname : member.diename = .noEntry)
      (hown : OwnLocation exprOf var locInfo varAddr member s varAddr)

theorem orReturn_eq_ok {α : Type} {res : DwRes α} {value : α} :
    (res.orReturn : DebuggerM κ α) s = (.ok value, t) ↔ res = .ok value ∧ s = t := by
  cases res with
  | ok found => simp [DwRes.orReturn]
  | noEntry | error => simp [DwRes.orReturn]

theorem locAttribute_of_ok {attr : LocAttribute} (hattr : member.dataMemberLocation = .ok attr)
    (requests : Nat) : member.locAttribute types requests = attr := by
  unfold MemberDie.locAttribute
  rw [hattr]

theorem locAttribute_of_noEntry (hattr : member.dataMemberLocation = .noEntry) (requests : Nat) :
    member.locAttribute types requests = types.undefLocation requests := by
  unfold MemberDie.locAttribute
  rw [hattr]

variable {attr : LocAttribute} {form : LocForm} {found : Option UWORD}

-- A constant form puts the member behind the start of the object.
theorem memberAddr_constant_eq_ok (hname : member.diename ≠ .noEntry)
    (hattr : member.locAttribute types s.log.length = attr) (hform : attr.whatform = .ok form)
    (hconstant : form.isConstant = true) :
    memberAddr env var types locInfo varAddr member s = (.ok found, s) ↔
      ∃ offset, attr.formsdata = .ok offset ∧ found = some (offset + varAddr) := by
  rw [memberAddr_constant hname hattr hform hconstant, Action.bind_eq_ok]
  constructor
  · rintro ⟨offset, v, hoffset, hfound⟩
    cases hfound
    exact ⟨offset, (orReturn_eq_ok.mp hoffset).1, rfl⟩
  · rintro ⟨offset, hoffset, rfl⟩
    exact ⟨offset, s, orReturn_eq_ok.mpr ⟨hoffset, rfl⟩, rfl⟩

-- The form of a member's attribute, where the loop comes past it.
theorem memberAddr_whatform (hname : member.diename ≠ .noEntry)
    (hfound : memberAddr env var types locInfo varAddr member s = (.ok found, s)) :
    ∃ form, (member.locAttribute types s.log.length).whatform = .ok form := by
  rw [memberAddr_named hname] at hfound
  obtain ⟨form, v, hform, -⟩ := Action.bind_eq_ok.mp hfound
  exact ⟨form, (orReturn_eq_ok.mp hform).1⟩

-- The kinds of members for which the address is that of the member.
theorem placed_iff (hflag : locInfo.hInitial = 1)
    (hfound : memberAddr env var types locInfo varAddr member s = (.ok found, s)) :
    Placed exprOf env var types locInfo varAddr member s ↔
      ∃ addr, found = some addr ∧ OwnLocation exprOf var locInfo varAddr member s addr := by
  have hexpression {addr : UWORD}
      (haddr : memberAddr env var types locInfo varAddr member s = (.ok (some addr), s)) :
      found = some addr := by
    rw [hfound] at haddr
    cases haddr
    rfl
  constructor
  · intro h
    cases h with
    | constant hname hattr hform hconstant =>
        obtain ⟨offset, hoffset, hvalue⟩ := (memberAddr_constant_eq_ok hname
          (locAttribute_of_ok hattr _) hform hconstant).mp hfound
        exact ⟨_, hvalue, .constant hattr hform hconstant hoffset⟩
    | expression hname hattr hform hexpr haddr hown =>
        exact ⟨_, hexpression ((memberAddr_expression_eq_ok hflag hname
          (locAttribute_of_ok hattr _) hform hexpr).mpr haddr), .expression hattr hform hexpr hown⟩
    | undefConstant hname hattr hform hconstant hoffset =>
        obtain ⟨offset, hoffset', hvalue⟩ := (memberAddr_constant_eq_ok hname
          (locAttribute_of_noEntry hattr _) hform hconstant).mp hfound
        rw [hoffset] at hoffset'
        cases hoffset'
        exact ⟨_, hvalue.trans (congrArg some (BitVec.zero_add varAddr)), .missing hattr⟩
    | undefExpression hname hattr hform hexpr haddr =>
        exact ⟨_, hexpression ((memberAddr_expression_eq_ok hflag hname
          (locAttribute_of_noEntry hattr _) hform hexpr).mpr haddr), .missing hattr⟩
    | unnamed hname hown => exact ⟨_, hexpression (memberAddr_unnamed hname s), hown⟩
  · rintro ⟨addr, rfl, hown⟩
    by_cases hname : member.diename = .noEntry
    · rw [memberAddr_unnamed hname] at hfound
      cases hfound
      exact .unnamed hname hown
    cases hown with
    | constant hattr hform hconstant => exact .constant hname hattr hform hconstant
    | expression hattr hform hexpr hown =>
        exact .expression hname hattr hform hexpr ((memberAddr_expression_eq_ok hflag hname
          (locAttribute_of_ok hattr _) hform hexpr).mp hfound) hown
    | missing hattr =>
        have hundef : member.locAttribute types s.log.length =
            types.undefLocation s.log.length := locAttribute_of_noEntry hattr _
        obtain ⟨form, hform⟩ := memberAddr_whatform hname hfound
        rw [hundef] at hform
        cases hconstant : form.isConstant with
        | true =>
            obtain ⟨offset, hoffset, hsome⟩ :=
              (memberAddr_constant_eq_ok hname hundef hform hconstant).mp hfound
            have hzero : offset = 0 := by
              have hsame := Option.some.inj hsome
              bv_omega
            exact .undefConstant hname hattr hform hconstant (hzero ▸ hoffset)
        | false =>
            cases hexpr : form.isExpression with
            | true =>
                exact .undefExpression hname hattr hform hexpr
                  ((memberAddr_expression_eq_ok hflag hname hundef hform hexpr).mp hfound)
            | false =>
                rw [memberAddr_unsupported hname hundef hform hconstant hexpr] at hfound
                cases hfound

-- A form that the printer has a case for.
def MemberDie.Supported (member : MemberDie) : Prop :=
  ∀ attr form, member.dataMemberLocation = .ok attr → attr.whatform = .ok form →
    form.isConstant = true ∨ form.isExpression = true

-- The two kinds of places that an attribute that can be read says.
theorem OwnLocation.of_ok {addr : UWORD}
    (h : OwnLocation exprOf var locInfo varAddr member s addr)
    (hattr : member.dataMemberLocation = .ok attr) :
    (∃ form offset, attr.whatform = .ok form ∧ form.isConstant = true ∧
        attr.formsdata = .ok offset ∧ addr = offset + varAddr) ∨
      ∃ form, attr.whatform = .ok form ∧ form.isExpression = true := by
  cases h with
  | missing hattr' => cases hattr.symm.trans hattr'
  | constant hattr' hform hconstant hoffset =>
      cases hattr.symm.trans hattr'
      exact .inl ⟨_, _, hform, hconstant, hoffset, rfl⟩
  | expression hattr' hform hexpr =>
      cases hattr.symm.trans hattr'
      exact .inr ⟨_, hform, hexpr⟩

theorem OwnLocation.supported {addr : UWORD}
    (h : OwnLocation exprOf var locInfo varAddr member s addr) : member.Supported := by
  intro attr form hattr hform
  rcases h.of_ok hattr with ⟨form', -, hform', hconstant, -⟩ | ⟨form', hform', hexpr⟩
  · cases hform.symm.trans hform'
    exact .inl hconstant
  · cases hform.symm.trans hform'
    exact .inr hexpr

theorem OwnLocation.eq_of_constant {addr : UWORD} {offset : WORD}
    (h : OwnLocation exprOf var locInfo varAddr member s addr)
    (hattr : member.dataMemberLocation = .ok attr) (hform : attr.whatform = .ok form)
    (hconstant : form.isConstant = true) (hoffset : attr.formsdata = .ok offset) :
    addr = offset + varAddr := by
  rcases h.of_ok hattr with ⟨-, offset', -, -, hoffset', rfl⟩ | ⟨form', hform', hexpr⟩
  · cases hoffset.symm.trans hoffset'
    rfl
  · cases hform.symm.trans hform'
    rw [isConstant_of_isExpression hexpr] at hconstant
    cases hconstant

-- The passes of a loop that gives each member the text at its own location, and closes the
-- brace behind them.
structure CompleteRun (exprOf : MemberDie → DwRes (List (DwRes LocDesc))) (env : Env κ)
    (var : VarEnv κ) (types : TypeEnv) (locInfo : LocInfo) (varAddr : UWORD)
    (sprintVal : DwRes UWORD → UWORD → DebuggerM κ CString) (children : List (DwRes MemberDie))
    (s : Debugger κ) (text : CString) (t : Debugger κ) (entries : List (MemberEntry κ)) : Prop where
  passes : MembersPrinted env var types locInfo varAddr sprintVal children s entries none t
  text_eq : text = structText (entries.map MemberEntry.shown)
  members : entries.map MemberEntry.member = dataMembers children
  located : ∀ entry ∈ entries,
    OwnLocation exprOf var locInfo varAddr entry.member entry.before entry.addr
  supported : ∀ member ∈ dataMembers children, member.Supported

-- Both sides go through the passes from the first to the last.
theorem entries_placed_iff {sprintVal : DwRes UWORD → UWORD → DebuggerM κ CString}
    {children : List (DwRes MemberDie)} {entries : List (MemberEntry κ)} {cut : Option MemberDie}
    (hflag : locInfo.hInitial = 1)
    (hrun : MembersPrinted env var types locInfo varAddr sprintVal children s entries cut t) :
    (cut = none ∧ entries.map MemberEntry.member = dataMembers children ∧ ∀ entry ∈ entries,
        OwnLocation exprOf var locInfo varAddr entry.member entry.before entry.addr) ↔
      ReadsMembers children ∧ ∀ member before,
        MemberPass env var types locInfo varAddr sprintVal children s member before →
          Placed exprOf env var types locInfo varAddr member before := by
  induction hrun with
  | last hget =>
      rw [getDataMembers_stops hget, eq_comm (a := List.map _ _)]
      refine ⟨fun h => ⟨h.2.1, fun member before hpass => ?_⟩, fun h => ⟨rfl, h.1, ?_⟩⟩
      · cases hpass with
        | first hget' => exact absurd hget' (hget _)
        | next hget' => exact absurd hget' (hget _)
      · exact fun entry hentry => absurd hentry List.not_mem_nil
  | cut hget hname haddr =>
      refine iff_of_false (fun h => by cases h.1) fun h => ?_
      obtain ⟨addr, hnone, -⟩ := (placed_iff hflag haddr).mp (h.2 _ _ (.first hget hname))
      cases hnone
  | @next children rest s t u member addr val entries cut hget hname haddr hval _ ih =>
      obtain ⟨hmembers, hreads, -⟩ := getDataMembers_ok hget
      have hplaced : Placed exprOf env var types locInfo varAddr member s ↔
          OwnLocation exprOf var locInfo varAddr member s addr := by
        rw [placed_iff hflag haddr]
        simp
      rw [hreads, memberPass_forall_next hget hname haddr hval, hplaced,
        and_left_comm (a := ReadsMembers rest), ← ih, hmembers]
      simp only [List.map_cons, List.cons.injEq, true_and, List.forall_mem_cons]
      constructor
      · rintro ⟨hcut, hsame, hown, hrest⟩
        exact ⟨hown, hcut, hsame, hrest⟩
      · rintro ⟨hown, hcut, hsame, hrest⟩
        exact ⟨hcut, hsame, hown, hrest⟩

-- A structure that is printed with the result 0 is printed as a whole just if its members can
-- all be read and are of the kinds that the loop puts where they are.
theorem struct_complete_iff (exprOf : MemberDie → DwRes (List (DwRes LocDesc))) {fuel : Nat}
    {structTypeDie : TypeDie} {text : CString}
    (hinit : structLocInfo env var varAddr s = (.ok locInfo, u))
    (hrun : sprintVarDieGivenStructType env var types (sprintVariableDieVal env var types fuel)
      varAddr structTypeDie s = (.ok text, t)) :
    (∃ entries, CompleteRun exprOf env var types locInfo varAddr
        (sprintVariableDieVal env var types fuel) structTypeDie.children u text t entries) ↔
      ReadsMembers structTypeDie.children ∧ ∀ member before,
        MemberPass env var types locInfo varAddr (sprintVariableDieVal env var types fuel)
            structTypeDie.children u member before →
          Placed exprOf env var types locInfo varAddr member before := by
  have hflag := structLocInfo_hInitial hinit
  constructor
  · rintro ⟨entries, h⟩
    exact (entries_placed_iff hflag h.passes).mp ⟨rfl, h.members, h.located⟩
  · intro h
    obtain ⟨entries, cut, hpasses, rfl⟩ := (sprintVarDieGivenStructType_eq_ok hinit).mp hrun
    obtain ⟨rfl, hmembers, hlocated⟩ := (entries_placed_iff hflag hpasses).mpr h
    refine ⟨entries, hpasses, ?_, hmembers, hlocated, fun member hmember => ?_⟩
    · rw [membersText_none, structText_eq]
    rw [← hmembers] at hmember
    obtain ⟨entry, hentry, rfl⟩ := List.mem_map.mp hmember
    exact (hlocated entry hentry).supported

section Example

def wordMember (name : DwRes CString) (offset : WORD) (typeOffset : UWORD) : MemberDie where
  tag := .ok .DW_TAG_member
  diename := name
  typeOffset := .ok typeOffset
  dataMemberLocation := .ok ⟨.ok .DW_FORM_data1, .ok offset⟩
  dataLocation := .noEntry

def structOf (members : List MemberDie) : TypeDie where
  tag := .ok .DW_TAG_structure_type
  typeOffset := .noEntry
  encoding := .noEntry
  bytesize := .ok 16
  children := members.map .ok

theorem structOf_readsMembers (members : List MemberDie)
    (h : ∀ member ∈ members, member.tag = .ok .DW_TAG_member) :
    ReadsMembers (structOf members).children := by
  refine readsMembers_of_readable fun child hchild => ?_
  obtain ⟨member, hmember, rfl⟩ := List.mem_map.mp hchild
  exact ⟨member, _, rfl, h member hmember⟩

-- A structure of one word at 0x50, and words at all other offsets.
def nestedTypes : TypeEnv where
  typeOffset _ := .ok 0x40
  offdie offset :=
    .ok (if offset = 0x50 then structOf [wordMember (.ok "b".toList) 0 0x40] else unsignedType 8)
  formatDouble _ := []
  undefLocation _ := ⟨.noEntry, .noEntry⟩
  fuel := 8

def pairStruct : TypeDie :=
  structOf [wordMember (.ok "a".toList) 0 0x40, wordMember (.ok "b".toList) 8 0x40]

-- 7 at 0x3008, and zeros everywhere else.
def sevenBehind : Debugger Unit := atPrompt (writeWord (fun _ => 0) 0x3008 7) 0x2000

theorem eq_of_value {σ α : Type} {run : Outcome α × σ} {value : α} (h : run.1.value? = some value) :
    run = (.ok value, run.2) := by
  obtain ⟨_ | _ | _, s⟩ := run
  · cases h
    rfl
  · cases h
  · cases h

theorem named_members_complete :
    ∃ locInfo u t entries, CompleteRun (fun _ => .noEntry) nopEnv implicitVarEnv nestedTypes
      locInfo 0x3000 (sprintVariableDieVal nopEnv implicitVarEnv nestedTypes 1)
      pairStruct.children u "{[0]a: 0, [1]b: 7}".toList t entries := by
  have hprinted : (sprintVarDieGivenStructType nopEnv implicitVarEnv nestedTypes
      (sprintVariableDieVal nopEnv implicitVarEnv nestedTypes 1) 0x3000 pairStruct
      sevenBehind).1.value? = some "{[0]a: 0, [1]b: 7}".toList := by
    decide +kernel
  refine ⟨_, _, _, (struct_complete_iff (fun _ => .noEntry) rfl (eq_of_value hprinted)).mpr
    ⟨structOf_readsMembers _ (by decide), fun member before hpass => ?_⟩⟩
  rcases List.mem_pair.mp hpass.mem with rfl | rfl
  · exact .constant (by decide) rfl rfl rfl
  · exact .constant (by decide) rfl rfl rfl

-- A word and then an anonymous structure of one, in which the word is `b`.
def anonymousBehind : TypeDie :=
  structOf [wordMember (.ok "a".toList) 0 0x40, wordMember .noEntry 8 0x50]

-- The word in the anonymous structure is read where the other one is.
theorem anonymous_read_at_start :
    ∃ locInfo u t, structLocInfo nopEnv implicitVarEnv 0x3000 sevenBehind = (.ok locInfo, u) ∧
      sprintVarDieGivenStructType nopEnv implicitVarEnv nestedTypes
        (sprintVariableDieVal nopEnv implicitVarEnv nestedTypes 2) 0x3000 anonymousBehind
        sevenBehind = (.ok "\x7b[0]a: 0, [1]--: \x7b[0]b: 0\x7d\x7d".toList, t) ∧
      ∀ exprOf, ¬∃ entries, CompleteRun exprOf nopEnv implicitVarEnv nestedTypes locInfo 0x3000
        (sprintVariableDieVal nopEnv implicitVarEnv nestedTypes 2) anonymousBehind.children u
        "\x7b[0]a: 0, [1]--: \x7b[0]b: 0\x7d\x7d".toList t entries := by
  have hprinted : (sprintVarDieGivenStructType nopEnv implicitVarEnv nestedTypes
      (sprintVariableDieVal nopEnv implicitVarEnv nestedTypes 2) 0x3000 anonymousBehind
      sevenBehind).1.value? = some "\x7b[0]a: 0, [1]--: \x7b[0]b: 0\x7d\x7d".toList := by
    decide +kernel
  have hinit : structLocInfo nopEnv implicitVarEnv 0x3000 sevenBehind = (.ok _, _) := rfl
  refine ⟨_, _, _, hinit, eq_of_value hprinted, fun exprOf ⟨entries, h⟩ => ?_⟩
  have hword : (sprintVariableDieVal nopEnv implicitVarEnv nestedTypes 2 (.ok 0x40) 0x3000
      (sevenBehind.note .getRegs true)).1.value? = some "0".toList := by
    decide +kernel
  have hplaced := ((entries_placed_iff (structLocInfo_hInitial hinit) h.passes).mp
    ⟨rfl, h.members, h.located⟩).2 (wordMember .noEntry 8 0x50) _
    (.next rfl (by decide) rfl (eq_of_value hword) (.first rfl (by decide)))
  cases hplaced with
  | unnamed _ hown =>
      exact absurd (hown.eq_of_constant rfl rfl rfl rfl) (by decide)
  | constant hname | expression hname | undefConstant hname | undefExpression hname =>
      exact hname rfl

end Example

end Complete

section Expressions

variable {locInfo : LocInfo} {s t u : Debugger κ} {varAddr : UWORD} {member : MemberDie}
  {attr : LocAttribute} {form : LocForm}

-- The address for a member located by an expression is the one that its
-- DW_AT_data_member_location comes to from the address of the object. Where that comes to none,
-- there is a result code, with which the printer returns.
structure LocatedFromObject (env : Env κ) (var : VarEnv κ) (types : TypeEnv) (locInfo : LocInfo)
    (varAddr : UWORD) (loclist : DwRes (List (DwRes LocDesc))) (member : MemberDie)
    (s : Debugger κ) : Prop where
  address : ∀ addr, locationFrom (var.expr s) var.fuel locInfo varAddr loclist = .ok addr →
    memberAddr env var types locInfo varAddr member s = (.ok (some addr), s)
  failure : ∀ code, locationFrom (var.expr s) var.fuel locInfo varAddr loclist = .error code →
    ∃ code', (memberAddr env var types locInfo varAddr member s).1 = .error code'

-- A failure of the evaluation is not handed on.
theorem memberAddr_expression_ne_error (hname : member.diename ≠ .noEntry)
    (hattr : member.locAttribute types s.log.length = attr) (hform : attr.whatform = .ok form)
    (hexpr : form.isExpression = true) (code : Int) :
    (memberAddr env var types locInfo varAddr member s).1 ≠ .error code := by
  rw [memberAddr_expression hname hattr hform hexpr, Action.bind_apply]
  unfold memberLocation
  cases (getVarLocation (var.expr s) var.fuel member.dataLocation locInfo.freshExpr).1 with
  | ok addr => exact fun h => by cases h
  | error code' => exact fun h => by cases h
  | pending => exact fun h => by cases h

-- Another attribute is evaluated, and from the flag.
theorem located_from_object_iff (loclist : DwRes (List (DwRes LocDesc)))
    (hinit : structLocInfo env var varAddr u = (.ok locInfo, t))
    (hattr : member.dataMemberLocation = .ok attr) (hform : attr.whatform = .ok form)
    (hexpr : form.isExpression = true) :
    LocatedFromObject env var types locInfo varAddr loclist member s ↔
      locationFrom (var.expr s) var.fuel locInfo varAddr loclist = .pending ∨
        ∃ addr, locationFrom (var.expr s) var.fuel locInfo varAddr loclist = .ok addr ∧
          (member.diename = .noEntry ∧ addr = varAddr ∨
            member.diename ≠ .noEntry ∧ ExprAddr env var locInfo member s addr) := by
  have hflag := structLocInfo_hInitial hinit
  have hused : member.locAttribute types s.log.length = attr := locAttribute_of_ok hattr _
  have hunnamed (hname : member.diename = .noEntry) :
      memberAddr env var types locInfo varAddr member s = (.ok (some varAddr), s) :=
    memberAddr_unnamed hname s
  constructor
  · intro h
    cases hown : locationFrom (var.expr s) var.fuel locInfo varAddr loclist with
    | pending => exact .inl rfl
    | error code =>
        obtain ⟨code', hcode⟩ := h.failure code hown
        by_cases hname : member.diename = .noEntry
        · rw [hunnamed hname] at hcode
          cases hcode
        · exact absurd hcode (memberAddr_expression_ne_error hname hused hform hexpr code')
    | ok addr =>
        have haddr := h.address addr hown
        refine .inr ⟨addr, rfl, ?_⟩
        by_cases hname : member.diename = .noEntry
        · rw [hunnamed hname] at haddr
          cases haddr
          exact .inl ⟨hname, rfl⟩
        · exact .inr ⟨hname, (memberAddr_expression_eq_ok hflag hname hused hform hexpr).mp haddr⟩
  · rintro (hpending | ⟨addr, hown, hplaced⟩)
    · refine ⟨fun addr hown => ?_, fun code hown => ?_⟩
      all_goals
        rw [hpending] at hown
        cases hown
    refine ⟨fun other hother => ?_, fun code herror => ?_⟩
    · rw [hown] at hother
      cases hother
      rcases hplaced with ⟨hname, rfl⟩ | ⟨hname, haddr⟩
      · exact hunnamed hname
      · exact (memberAddr_expression_eq_ok hflag hname hused hform hexpr).mpr haddr
    · rw [hown] at herror
      cases herror

section Example

-- A member whose DW_AT_data_member_location is a location expression.
def exprMember (dataLocation : DwRes (List (DwRes LocDesc))) : MemberDie where
  tag := .ok .DW_TAG_member
  diename := .ok "b".toList
  typeOffset := .ok 0x40
  dataMemberLocation := .ok ⟨.ok .DW_FORM_exprloc, .noEntry⟩
  dataLocation

-- The operations for each pc.
def exprloc (ops : List LocOp) : DwRes (List (DwRes LocDesc)) :=
  .ok [.ok ⟨0, 0xffffffffffffffff, ops.map .ok⟩]

-- Eight bytes behind what is on the stack.
def plusEight : DwRes (List (DwRes LocDesc)) := exprloc [{ op := .DW_OP_plus_uconst, opd1 := 8 }]

-- The frame that is known for the members of a structure at 0x3000.
def objectLocInfo : LocInfo where
  inital := 0x3000
  hInitial := 1
  calleeRegsCurValue := { rip := 0x2000 }

theorem objectLocInfo_init : structLocInfo nopEnv implicitVarEnv 0x3000 sevenBehind =
    (.ok objectLocInfo, sevenBehind.note .getRegs true) := rfl

-- The other attribute has the address as a constant.
theorem constant_data_location :
    LocatedFromObject nopEnv implicitVarEnv nestedTypes objectLocInfo 0x3000 plusEight
      (exprMember (exprloc [{ op := .DW_OP_constu, opd1 := 0x3008 }])) sevenBehind :=
  (located_from_object_iff plusEight objectLocInfo_init rfl rfl rfl).mpr
    (.inr ⟨0x3008, by decide +kernel, .inr ⟨by decide, .inl (by decide +kernel)⟩⟩)

-- There is no other attribute, and the address is what was in the variable.
theorem data_location_missing :
    locationFrom (implicitVarEnv.expr sevenBehind) implicitVarEnv.fuel objectLocInfo 0x3000
        plusEight = .ok 0x3008 ∧
      memberAddr nopEnv implicitVarEnv nestedTypes objectLocInfo 0x3000 (exprMember .noEntry)
        sevenBehind = (.ok (some 0), sevenBehind) ∧
      ¬LocatedFromObject nopEnv implicitVarEnv nestedTypes objectLocInfo 0x3000 plusEight
        (exprMember .noEntry) sevenBehind := by
  have hown : locationFrom (implicitVarEnv.expr sevenBehind) implicitVarEnv.fuel objectLocInfo
      0x3000 plusEight = .ok 0x3008 := by
    decide +kernel
  have hused : memberAddr nopEnv implicitVarEnv nestedTypes objectLocInfo 0x3000
      (exprMember .noEntry) sevenBehind = (.ok (some 0), sevenBehind) := rfl
  refine ⟨hown, hused, fun h => ?_⟩
  have haddr := hused.symm.trans (h.address _ hown)
  exact absurd (congrArg Prod.fst haddr) (by decide)

end Example

end Expressions

end VDebugger
