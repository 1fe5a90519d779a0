import VDebugger.Var.Integers

namespace VDebugger

open Machine

variable {κ : Type} {env : Env κ} {var : VarEnv κ} {types : TypeEnv}

section Children

-- A child whose tag can be read.
def ReadableChild (child : DwRes MemberDie) : Prop :=
  ∃ die tag, child = .ok die ∧ die.tag = .ok tag

def dataMember (child : DwRes MemberDie) : Option MemberDie :=
  match child with
  | .ok die => if die.tag = .ok .DW_TAG_member then some die else none
  | .noEntry | .error => none

-- The DW_TAG_member children.
def dataMembers (children : List (DwRes MemberDie)) : List MemberDie :=
  children.filterMap dataMember

-- No member stands behind a child that cannot be read.
def ReadsMembers (children : List (DwRes MemberDie)) : Prop :=
  ∀ skipped child rest, children = skipped ++ child :: rest → ¬ReadableChild child →
    dataMembers rest = []

variable {child : DwRes MemberDie} {children rest : List (DwRes MemberDie)} {member : MemberDie}

theorem dataMember_of_not_readable (h : ¬ReadableChild child) : dataMember child = none := by
  cases child with
  | ok die =>
      have htag : die.tag ≠ .ok .DW_TAG_member := fun htag => h ⟨die, _, rfl, htag⟩
      exact if_neg htag
  | noEntry => rfl
  | error => rfl

theorem dataMember_of_other {die : MemberDie} {tag : TypeTag} (htag : die.tag = .ok tag)
    (hne : tag = .DW_TAG_member → False) : dataMember (.ok die) = none := by
  refine if_neg fun hmember => hne ?_
  rw [htag] at hmember
  exact DwRes.ok.inj hmember

theorem readsMembers_of_none (h : dataMembers children = []) : ReadsMembers children := by
  rintro skipped child rest rfl -
  unfold dataMembers at h ⊢
  rw [List.filterMap_eq_nil_iff] at h ⊢
  exact fun c hc => h c (List.mem_append_right _ (List.mem_cons_of_mem _ hc))

theorem readsMembers_cons_of_readable (h : ReadableChild child) :
    ReadsMembers (child :: rest) ↔ ReadsMembers rest := by
  constructor
  · intro hreads skipped other behind heq
    exact hreads (child :: skipped) other behind (by rw [heq, List.cons_append])
  · intro hreads skipped other behind heq hother
    rcases List.cons_eq_append_iff.mp heq with ⟨-, hhead⟩ | ⟨before, -, hrest⟩
    · rw [(List.cons.inj hhead).1] at hother
      exact absurd h hother
    · exact hreads before other behind hrest hother

theorem readsMembers_cons_of_not_readable (h : ¬ReadableChild child) :
    ReadsMembers (child :: rest) ↔ dataMembers (child :: rest) = [] := by
  have hsame : dataMembers (child :: rest) = dataMembers rest :=
    List.filterMap_cons_none (dataMember_of_not_readable h)
  exact ⟨fun hreads => hsame.trans (hreads [] child rest rfl h), readsMembers_of_none⟩

theorem readsMembers_of_readable (h : ∀ child ∈ children, ReadableChild child) :
    ReadsMembers children := by
  rintro skipped child rest rfl hchild
  exact absurd (h child (List.mem_append_right _ List.mem_cons_self)) hchild

-- A member that is moved on to is the next one of all members.
theorem getDataMembers_ok (h : getDataMembers children = .ok (member, rest)) :
    dataMembers children = member :: dataMembers rest ∧
      (ReadsMembers children ↔ ReadsMembers rest) ∧ rest.length < children.length := by
  fun_induction getDataMembers children with
  | case1 | case2 | case3 | case4 | case5 => cases h
  | case6 die behind htag =>
      cases h
      have hmember : dataMember (.ok member) = some member := if_pos htag
      exact ⟨List.filterMap_cons_some hmember,
        readsMembers_cons_of_readable ⟨member, _, rfl, htag⟩, Nat.lt_succ_self _⟩
  | case7 die behind tag hne htag ih =>
      obtain ⟨hmembers, hreads, hlength⟩ := ih h
      exact ⟨(List.filterMap_cons_none (dataMember_of_other htag hne)).trans hmembers,
        (readsMembers_cons_of_readable ⟨die, tag, rfl, htag⟩).trans hreads,
        hlength.trans (Nat.lt_succ_self _)⟩

-- Where there is none to move on to, none is left unless one stands behind a child that
-- cannot be read.
theorem getDataMembers_stops (h : ∀ next, getDataMembers children ≠ .ok next) :
    ReadsMembers children ↔ dataMembers children = [] := by
  fun_induction getDataMembers children with
  | case1 => exact ⟨fun _ => rfl, readsMembers_of_none⟩
  | case2 | case3 =>
      refine readsMembers_cons_of_not_readable fun ⟨_, _, heq, _⟩ => ?_
      cases heq
  | case4 die behind htag | case5 die behind htag =>
      refine readsMembers_cons_of_not_readable fun ⟨_, _, heq, hread⟩ => ?_
      cases heq
      rw [htag] at hread
      cases hread
  | case6 die behind htag => exact absurd rfl (h (die, behind))
  | case7 die behind tag hne htag ih =>
      have hsame : dataMembers (.ok die :: behind) = dataMembers behind :=
        List.filterMap_cons_none (dataMember_of_other htag hne)
      rw [readsMembers_cons_of_readable ⟨die, tag, rfl, htag⟩, hsame]
      exact ih h

end Children

section Loop

-- One pass of the loop over the members: the address that the member is read at, and the text
-- that is written for it.
structure MemberEntry (κ : Type) where
  member : MemberDie
  before : Debugger κ
  addr : UWORD
  val : CString

variable {locInfo : LocInfo} {varAddr : UWORD}
  {sprintVal : DwRes UWORD → UWORD → DebuggerM κ CString}

-- The name in the text.
def MemberDie.shownName (member : MemberDie) : CString :=
  match member.diename with
  | .ok memberName => memberName
  | .noEntry | .error => "--".toList

-- The passes of a loop that comes to its end, from a state to a state. The last of them may be
-- one that returns the 0 that is in `res`.
inductive MembersPrinted (env : Env κ) (var : VarEnv κ) (types : TypeEnv) (locInfo : LocInfo)
    (varAddr : UWORD) (sprintVal : DwRes UWORD → UWORD → DebuggerM κ CString) :
    List (DwRes MemberDie) → Debugger κ → List (MemberEntry κ) → Option MemberDie →
      Debugger κ → Prop
  | last {children : List (DwRes MemberDie)} {s : Debugger κ}
      (hget : ∀ next, getDataMembers children ≠ .ok next) :
      MembersPrinted env var types locInfo varAddr sprintVal children s [] none s
  | cut {children rest : List (DwRes MemberDie)} {s : Debugger κ} {member : MemberDie}
      (hget : getDataMembers children = .ok (member, rest)) (hname : member.diename ≠ .error)
      (haddr : memberAddr env var types locInfo varAddr member s = (.ok none, s)) :
      MembersPrinted env var types locInfo varAddr sprintVal children s [] (some member) s
  | next {children rest : List (DwRes MemberDie)} {s t u : Debugger κ} {member : MemberDie}
      {addr : UWORD} {val : CString} {entries : List (MemberEntry κ)} {cut : Option MemberDie}
      (hget : getDataMembers children = .ok (member, rest)) (hname : member.diename ≠ .error)
      (haddr : memberAddr env var types locInfo varAddr member s = (.ok (some addr), s))
      (hval : sprintVal member.typeOffset addr s = (.ok val, t))
      (hrest : MembersPrinted env var types locInfo varAddr sprintVal rest t entries cut u) :
      MembersPrinted env var types locInfo varAddr sprintVal children s
        (⟨member, s, addr, val⟩ :: entries) cut u

-- What they write, from member `i` on.
def membersText : Nat → List (MemberEntry κ) → Option MemberDie → CString
  | _, [], none => ['}']
  | i, [], some member => memberLabel i member.shownName
  | i, entry :: entries, cut =>
      memberLabel i entry.member.shownName ++ entry.val ++ membersText (i + 1) entries cut

def LocForm.isConstant : LocForm → Bool
  | .DW_FORM_data1 | .DW_FORM_data2 | .DW_FORM_data4 | .DW_FORM_data8 | .DW_FORM_sdata
  | .DW_FORM_udata => true
  | _ => false

def LocForm.isExpression : LocForm → Bool
  | .DW_FORM_exprloc | .DW_FORM_loclistx | .DW_FORM_sec_offset => true
  | _ => false

-- What is in `data_member_location`, after so many requests.
def MemberDie.locAttribute (types : TypeEnv) (requests : Nat) (member : MemberDie) : LocAttribute :=
  match member.dataMemberLocation with
  | .ok attr => attr
  | .noEntry | .error => types.undefLocation requests

-- The address of a member with a name, by the kind of its form.
theorem memberAddr_named {member : MemberDie} (hname : member.diename ≠ .noEntry) (s : Debugger κ) :
    memberAddr env var types locInfo varAddr member s =
      ((member.locAttribute types s.log.length).whatform.orReturn >>= fun form =>
        if form.isConstant then do
          let offset ← (member.locAttribute types s.log.length).formsdata.orReturn
          pure (some (offset + varAddr))
        else if form.isExpression then do
          let addr ← memberLocation env var locInfo member
          pure (some addr)
        else pure none) s := by
  unfold memberAddr
  rw [if_neg hname, Action.bind_of_ok (Action.fetch_apply s)]
  refine congrFun (congrArg (bind (m := DebuggerM κ) _) (funext fun form => ?_)) s
  cases form <;> rfl

theorem memberAddr_unnamed {member : MemberDie} (hname : member.diename = .noEntry) (s : Debugger κ) :
    memberAddr env var types locInfo varAddr member s = (.ok (some varAddr), s) := by
  unfold memberAddr
  rw [if_pos hname]
  rfl

-- Finding the address of a member leaves the debugger as it is.
theorem memberAddr_keeps (env : Env κ) (var : VarEnv κ) (types : TypeEnv) (locInfo : LocInfo)
    (varAddr : UWORD) (member : MemberDie) (s : Debugger κ) :
    (memberAddr env var types locInfo varAddr member s).2 = s := by
  have hbind {α β : Type} {x : DebuggerM κ α} {f : α → DebuggerM κ β}
      (hx : x.Keeps fun s t => t = s) (hf : ∀ a, (f a).Keeps fun s t => t = s) :
      (x >>= f).Keeps fun s t => t = s :=
    Action.Keeps.bind (fun _ _ _ h h' => h'.trans h) hx hf
  have hreturn {α : Type} (res : DwRes α) : (res.orReturn : DebuggerM κ α).Keeps fun s t => t = s :=
    fun s => by cases res <;> rfl
  have hlocation : (memberLocation env var locInfo member).Keeps fun s t => t = s := by
    intro s
    unfold memberLocation
    split <;> rfl
  by_cases hname : member.diename = .noEntry
  · rw [memberAddr_unnamed hname]
  · rw [memberAddr_named hname]
    refine hbind (hreturn _) (fun form => ?_) s
    split_ifs
    · exact hbind (hreturn _) fun offset _ => rfl
    · exact hbind hlocation fun addr _ => rfl
    · exact fun _ => rfl

section Passes

variable {children rest : List (DwRes MemberDie)} {member : MemberDie} {passes i : Nat}
  {s t : Debugger κ} {text : CString}

theorem sprintMembers_stops (hget : ∀ next, getDataMembers children ≠ .ok next) :
    sprintMembers env var types locInfo varAddr sprintVal passes i children =
      (pure ['}'] : DebuggerM κ CString) := by
  cases passes with
  | zero => rfl
  | succ passes =>
      rw [sprintMembers]
      cases hnext : getDataMembers children with
      | noEntry | error => rfl
      | ok next => exact absurd hnext (hget next)

theorem sprintMembers_unread (hget : getDataMembers children = .ok (member, rest))
    (hname : member.diename = .error) :
    sprintMembers env var types locInfo varAddr sprintVal (passes + 1) i children s =
      (.error 1, s) := by
  rw [sprintMembers, hget]
  dsimp only
  rw [hname]
  rfl

theorem sprintMembers_pass (hget : getDataMembers children = .ok (member, rest))
    (hname : member.diename ≠ .error) :
    sprintMembers env var types locInfo varAddr sprintVal (passes + 1) i children =
      (memberAddr env var types locInfo varAddr member >>= fun addr =>
        match addr with
        | none => pure (memberLabel i member.shownName)
        | some addr => do
            let memberVal ← sprintVal member.typeOffset addr
            let behind ← sprintMembers env var types locInfo varAddr sprintVal passes (i + 1) rest
            pure (memberLabel i member.shownName ++ memberVal ++ behind)) := by
  rw [sprintMembers, hget]
  dsimp only
  unfold MemberDie.shownName
  cases hname' : member.diename with
  | error => exact absurd hname' hname
  | noEntry | ok memberName => rfl

theorem stops_eq_ok (hget : ∀ next, getDataMembers children ≠ .ok next) :
    sprintMembers env var types locInfo varAddr sprintVal passes i children s = (.ok text, t) ↔
      ∃ entries cut, MembersPrinted env var types locInfo varAddr sprintVal children s entries cut t ∧
        text = membersText i entries cut := by
  rw [sprintMembers_stops hget]
  constructor
  · intro h
    cases h
    exact ⟨[], none, .last hget, rfl⟩
  · rintro ⟨entries, cut, hrun, rfl⟩
    cases hrun with
    | last => rfl
    | cut hget' => exact absurd hget' (hget _)
    | next hget' => exact absurd hget' (hget _)

-- The first pass of a run, where `get_data_members` gives it a member.
theorem MembersPrinted.of_get {entries : List (MemberEntry κ)} {cut : Option MemberDie}
    (h : MembersPrinted env var types locInfo varAddr sprintVal children s entries cut t)
    (hget : getDataMembers children = .ok (member, rest)) :
    member.diename ≠ .error ∧
      (memberAddr env var types locInfo varAddr member s = (.ok none, s) ∧ entries = [] ∧
          cut = some member ∧ t = s ∨
        ∃ addr val u behind,
          memberAddr env var types locInfo varAddr member s = (.ok (some addr), s) ∧
          sprintVal member.typeOffset addr s = (.ok val, u) ∧
          MembersPrinted env var types locInfo varAddr sprintVal rest u behind cut t ∧
          entries = ⟨member, s, addr, val⟩ :: behind) := by
  cases h with
  | last hget' => exact absurd hget (hget' _)
  | cut hget' hname haddr =>
      rw [hget] at hget'
      cases hget'
      exact ⟨hname, .inl ⟨haddr, rfl, rfl, rfl⟩⟩
  | next hget' hname haddr hval hrest =>
      rw [hget] at hget'
      cases hget'
      exact ⟨hname, .inr ⟨_, _, _, _, haddr, hval, hrest, rfl⟩⟩

-- The loop's result, where it comes to its end.
theorem sprintMembers_eq_ok (hpasses : children.length ≤ passes) :
    sprintMembers env var types locInfo varAddr sprintVal passes i children s = (.ok text, t) ↔
      ∃ entries cut, MembersPrinted env var types locInfo varAddr sprintVal children s entries cut t ∧
        text = membersText i entries cut := by
  induction passes generalizing i children s text with
  | zero =>
      have hnone : children = [] := List.length_eq_zero_iff.mp (Nat.le_zero.mp hpasses)
      subst hnone
      exact stops_eq_ok fun next h => by cases h
  | succ passes ih =>
      by_cases hget : ∀ next, getDataMembers children ≠ .ok next
      · exact stops_eq_ok hget
      obtain ⟨⟨member, rest⟩, hget⟩ := not_forall_not.mp hget
      have hrest : rest.length ≤ passes := by
        have hlength := (getDataMembers_ok hget).2.2
        omega
      by_cases hname : member.diename = .error
      · rw [sprintMembers_unread hget hname]
        exact iff_of_false (fun h => by cases h) fun ⟨entries, cut, hrun, _⟩ =>
          (hrun.of_get hget).1 hname
      rw [sprintMembers_pass hget hname, Action.bind_eq_ok]
      constructor
      · rintro ⟨addr, u, haddr, hbehind⟩
        have hsame := memberAddr_keeps env var types locInfo varAddr member s
        rw [haddr] at hsame
        dsimp only at hsame
        subst hsame
        cases addr with
        | none =>
            cases hbehind
            exact ⟨[], some member, .cut hget hname haddr, rfl⟩
        | some addr =>
            obtain ⟨val, v, hval, hbehind⟩ := Action.bind_eq_ok.mp hbehind
            obtain ⟨behind, w, hbehind, htext⟩ := Action.bind_eq_ok.mp hbehind
            cases htext
            obtain ⟨entries, cut, hrun, rfl⟩ := (ih hrest).mp hbehind
            exact ⟨_, cut, .next hget hname haddr hval hrun, rfl⟩
      · rintro ⟨entries, cut, hrun, rfl⟩
        obtain ⟨-, ⟨haddr, rfl, rfl, rfl⟩ | ⟨addr, val, u, behind, haddr, hval, hrest', rfl⟩⟩ :=
          hrun.of_get hget
        · exact ⟨none, _, haddr, rfl⟩
        · exact ⟨some addr, s, haddr, Action.bind_eq_ok.mpr ⟨val, u, hval,
            Action.bind_eq_ok.mpr ⟨_, t, (ih hrest).mpr ⟨behind, cut, hrest', rfl⟩, rfl⟩⟩⟩

end Passes

-- A member that the loop comes to, and the state before its address is found.
inductive MemberPass (env : Env κ) (var : VarEnv κ) (types : TypeEnv) (locInfo : LocInfo)
    (varAddr : UWORD) (sprintVal : DwRes UWORD → UWORD → DebuggerM κ CString) :
    List (DwRes MemberDie) → Debugger κ → MemberDie → Debugger κ → Prop
  | first {children rest : List (DwRes MemberDie)} {s : Debugger κ} {member : MemberDie}
      (hget : getDataMembers children = .ok (member, rest)) (hname : member.diename ≠ .error) :
      MemberPass env var types locInfo varAddr sprintVal children s member s
  | next {children rest : List (DwRes MemberDie)} {s t before : Debugger κ}
      {member other : MemberDie} {addr : UWORD} {val : CString}
      (hget : getDataMembers children = .ok (member, rest)) (hname : member.diename ≠ .error)
      (haddr : memberAddr env var types locInfo varAddr member s = (.ok (some addr), s))
      (hval : sprintVal member.typeOffset addr s = (.ok val, t))
      (hpass : MemberPass env var types locInfo varAddr sprintVal rest t other before) :
      MemberPass env var types locInfo varAddr sprintVal children s other before

theorem MemberPass.mem {children : List (DwRes MemberDie)} {s before : Debugger κ}
    {member : MemberDie}
    (h : MemberPass env var types locInfo varAddr sprintVal children s member before) :
    member ∈ dataMembers children := by
  induction h with
  | first hget =>
      rw [(getDataMembers_ok hget).1]
      exact List.mem_cons_self
  | next hget _ _ _ _ ih =>
      rw [(getDataMembers_ok hget).1]
      exact List.mem_cons_of_mem _ ih

-- What holds at the first pass and all behind it.
theorem memberPass_forall_next {children rest : List (DwRes MemberDie)} {s t : Debugger κ}
    {member : MemberDie} {addr : UWORD} {val : CString} {p : MemberDie → Debugger κ → Prop}
    (hget : getDataMembers children = .ok (member, rest)) (hname : member.diename ≠ .error)
    (haddr : memberAddr env var types locInfo varAddr member s = (.ok (some addr), s))
    (hval : sprintVal member.typeOffset addr s = (.ok val, t)) :
    (∀ other before, MemberPass env var types locInfo varAddr sprintVal children s other before →
        p other before) ↔
      p member s ∧ ∀ other before,
        MemberPass env var types locInfo varAddr sprintVal rest t other before → p other before := by
  constructor
  · exact fun h => ⟨h _ _ (.first hget hname), fun other before hpass =>
      h other before (.next hget hname haddr hval hpass)⟩
  · rintro ⟨hfirst, hbehind⟩ other before hpass
    cases hpass with
    | first hget' =>
        rw [hget] at hget'
        cases hget'
        exact hfirst
    | next hget' _ haddr' hval' hpass =>
        rw [hget] at hget'
        cases hget'
        rw [haddr] at haddr'
        cases haddr'
        rw [hval] at hval'
        cases hval'
        exact hbehind other before hpass

end Loop

section Texts

-- `[i]name: val`
def entryText (i : Nat) (entry : CString × CString) : CString :=
  '[' :: Nat.toDigits 10 i ++ ']' :: entry.1 ++ ": ".toList ++ entry.2

-- The entries in braces, with their numbers from 0 on.
def structText (entries : List (CString × CString)) : CString :=
  '{' :: ", ".toList.intercalate (entries.mapIdx entryText) ++ ['}']

def MemberEntry.shown (entry : MemberEntry κ) : CString × CString :=
  (entry.member.shownName, entry.val)

theorem memberLabel_append (i : Nat) (name val : CString) :
    memberLabel i name ++ val = (if i > 0 then ", ".toList else []) ++ entryText i (name, val) := by
  unfold memberLabel entryText
  simp only [List.append_assoc, List.cons_append]

-- The entries as the passes write them, from number `i` on, and the brace behind them.
def entriesText : Nat → List (CString × CString) → CString
  | _, [] => ['}']
  | i, entry :: entries => memberLabel i entry.1 ++ entry.2 ++ entriesText (i + 1) entries

theorem membersText_none (i : Nat) (entries : List (MemberEntry κ)) :
    membersText i entries none = entriesText i (entries.map MemberEntry.shown) := by
  induction entries generalizing i with
  | nil => rfl
  | cons entry entries ih => rw [membersText, ih, List.map_cons, entriesText, MemberEntry.shown]

-- A separator stands before each entry but that with the number 0.
theorem entriesText_eq (i : Nat) (entries : List (CString × CString)) :
    entriesText i entries =
      (if i > 0 ∧ entries ≠ [] then ", ".toList else []) ++
        ", ".toList.intercalate (entries.mapIdx fun j entry => entryText (i + j) entry) ++ ['}'] := by
  induction entries generalizing i with
  | nil => simp [entriesText]
  | cons entry entries ih =>
      have hindex : (fun j entry => entryText (i + (j + 1)) entry) =
          fun j entry => entryText (i + 1 + j) entry := by
        funext j entry
        rw [Nat.add_comm j 1, Nat.add_assoc]
      rw [entriesText, memberLabel_append, ih, List.mapIdx_cons, hindex]
      cases entries with
      | nil => simp
      | cons other entries => simp [List.mapIdx_cons]

theorem structText_eq (entries : List (CString × CString)) :
    '{' :: entriesText 0 entries = structText entries := by
  rw [entriesText_eq]
  simp [structText]

end Texts

section Frame

-- `init_loc_info` behind the registers
def frameInfo (env : Env κ) (var : VarEnv κ) (debugee : Proc κ) (locInfo : LocInfo) :
    Outcome LocInfo :=
  if env.unwInitRemote debugee < 0 then .error 1
  else if env.unwStep debugee < 0 then .error 1
  else if env.unwStep debugee = 0 then .ok locInfo
  else if (var.unwGetRegIp debugee).1 < 0 then .error 1
  else if (env.unwGetRegSp debugee).1 < 0 then .error 1
  else .ok { locInfo with
    callerIp := (var.unwGetRegIp debugee).2
    callerSp := (env.unwGetRegSp debugee).2 }

-- Only the registers are asked for, the rest is a function of the debugee.
theorem initLocInfo_eq (env : Env κ) (var : VarEnv κ) (locInfo : LocInfo) :
    initLocInfo env var locInfo =
      (getRegsStruct env >>= fun regs s =>
        (frameInfo env var s.debugee { locInfo with calleeRegsCurValue := regs }, s) :
          DebuggerM κ LocInfo) := by
  refine congrArg (bind (m := DebuggerM κ) _) (funext fun regs => funext fun s => ?_)
  unfold frameInfo
  rw [Action.bind_of_ok (Action.fetch_apply s)]
  by_cases hinit : env.unwInitRemote s.debugee < 0
  · rw [Action.bind_of_error (Action.failIf_of hinit 1 s), if_pos hinit]
  rw [Action.bind_of_ok (Action.failIf_of_not hinit 1 s), if_neg hinit]
  by_cases hstep : env.unwStep s.debugee < 0
  · rw [Action.bind_of_error (Action.failIf_of hstep 1 s), if_pos hstep]
  rw [Action.bind_of_ok (Action.failIf_of_not hstep 1 s), if_neg hstep]
  by_cases houter : env.unwStep s.debugee = 0
  · rw [if_pos houter, if_pos houter]
    rfl
  rw [if_neg houter, if_neg houter]
  by_cases hip : (var.unwGetRegIp s.debugee).1 < 0
  · rw [if_pos hip]
    exact Action.bind_of_error (Action.failIf_of hip 1 s) _
  rw [if_neg hip]
  refine (Action.bind_of_ok (Action.failIf_of_not hip 1 s) _).trans ?_
  by_cases hsp : (env.unwGetRegSp s.debugee).1 < 0
  · rw [if_pos hsp]
    exact Action.bind_of_error (Action.failIf_of hsp 1 s) _
  · rw [if_neg hsp]
    exact Action.bind_of_ok (Action.failIf_of_not hsp 1 s) _

theorem frameInfo_hInitial {debugee : Proc κ} {locInfo filled : LocInfo}
    (h : frameInfo env var debugee locInfo = .ok filled) : filled.hInitial = locInfo.hInitial := by
  unfold frameInfo at h
  split_ifs at h <;> cases h <;> rfl

end Frame

section Struct

variable {varAddr : UWORD} {structTypeDie : TypeDie} {locInfo : LocInfo} {s t u : Debugger κ}
  {text : CString} {sprintVal : DwRes UWORD → UWORD → DebuggerM κ CString}

-- `init_loc_info` in `sprint_var_die_given_struct_type`
def structLocInfo (env : Env κ) (var : VarEnv κ) (varAddr : UWORD) : DebuggerM κ LocInfo := do
  let s ← Action.fetch
  initLocInfo env var { loadAddress := s.loadAddress, hInitial := 1, inital := varAddr }

-- The evaluations for the members start with the flag.
theorem structLocInfo_hInitial (hinit : structLocInfo env var varAddr s = (.ok locInfo, u)) :
    locInfo.hInitial = 1 := by
  unfold structLocInfo at hinit
  rw [Action.bind_of_ok (Action.fetch_apply s), initLocInfo_eq] at hinit
  obtain ⟨regs, t, -, hframe⟩ := Action.bind_eq_ok.mp hinit
  exact frameInfo_hInitial (congrArg Prod.fst hframe)

-- The text of a structure, from what the loop's passes write.
theorem sprintVarDieGivenStructType_eq_ok
    (hinit : structLocInfo env var varAddr s = (.ok locInfo, u)) :
    sprintVarDieGivenStructType env var types sprintVal varAddr structTypeDie s = (.ok text, t) ↔
      ∃ entries cut, MembersPrinted env var types locInfo varAddr sprintVal structTypeDie.children u
        entries cut t ∧ text = '{' :: membersText 0 entries cut := by
  have hloop : sprintVarDieGivenStructType env var types sprintVal varAddr structTypeDie s =
      (do
        let members ← sprintMembers env var types locInfo varAddr sprintVal
          structTypeDie.children.length 0 structTypeDie.children
        pure ('{' :: members) : DebuggerM κ CString) u :=
    Action.bind_of_ok hinit _
  rw [hloop, Action.bind_eq_ok]
  constructor
  · rintro ⟨members, v, hmembers, htext⟩
    cases htext
    obtain ⟨entries, cut, hrun, rfl⟩ := (sprintMembers_eq_ok (Nat.le_refl _)).mp hmembers
    exact ⟨entries, cut, hrun, rfl⟩
  · rintro ⟨entries, cut, hrun, rfl⟩
    exact ⟨_, t, (sprintMembers_eq_ok (Nat.le_refl _)).mpr ⟨entries, cut, hrun, rfl⟩, rfl⟩

end Struct

end VDebugger
