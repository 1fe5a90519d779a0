import VDebugger.Var.Struct

namespace VDebugger

open Machine

variable {κ : Type} {env : Env κ} {var : VarEnv κ} {types : TypeEnv}

section Graph

-- Whether an address is found for the member. Where it is not, the 0 that is in `res` is returned.
def MemberDie.addrFound (types : TypeEnv) (member : MemberDie) : Outcome Bool :=
  if member.diename = .noEntry then .ok true
  else
    match (member.locAttribute types 0).whatform with
    | .noEntry => .error (-1)
    | .error => .error 1
    | .ok form =>
        if form.isConstant then
          match (member.locAttribute types 0).formsdata with
          | .noEntry => .error (-1)
          | .error => .error 1
          | .ok _ => .ok true
        else .ok form.isExpression

-- No member ends the loop with an error, where these are the types that are printed.
inductive LoopPrints (types : TypeEnv) (prints : DwRes UWORD → Prop) : List (DwRes MemberDie) → Prop
  | last {children : List (DwRes MemberDie)} (hget : ∀ next, getDataMembers children ≠ .ok next) :
      LoopPrints types prints children
  | cut {children rest : List (DwRes MemberDie)} {member : MemberDie}
      (hget : getDataMembers children = .ok (member, rest)) (hname : member.diename ≠ .error)
      (haddr : member.addrFound types = .ok false) :
      LoopPrints types prints children
  | next {children rest : List (DwRes MemberDie)} {member : MemberDie}
      (hget : getDataMembers children = .ok (member, rest)) (hname : member.diename ≠ .error)
      (haddr : member.addrFound types = .ok true) (hprints : prints member.typeOffset)
      (hrest : LoopPrints types prints rest) :
      LoopPrints types prints children

-- The loop prints this member, if it prints the ones in front of it.
inductive LoopComesTo (types : TypeEnv) (prints : DwRes UWORD → Prop) :
    List (DwRes MemberDie) → MemberDie → Prop
  | here {children rest : List (DwRes MemberDie)} {member : MemberDie}
      (hget : getDataMembers children = .ok (member, rest)) (hname : member.diename ≠ .error)
      (haddr : member.addrFound types = .ok true) :
      LoopComesTo types prints children member
  | later {children rest : List (DwRes MemberDie)} {member other : MemberDie}
      (hget : getDataMembers children = .ok (member, rest)) (hname : member.diename ≠ .error)
      (haddr : member.addrFound types = .ok true) (hprints : prints member.typeOffset)
      (hrest : LoopComesTo types prints rest other) :
      LoopComesTo types prints children other

-- A type of this depth at most that is printed, where `init_loc_info` finds the frame or not.
def PrintsWithin (types : TypeEnv) (frame : Prop) : Nat → DwRes UWORD → Prop
  | 0, _ => False
  | depth + 1, typeOffset => ∃ offset typeDie, typeOffset = .ok offset ∧
      types.offdie offset = .ok typeDie ∧
      (typeDie.tag = .ok .DW_TAG_base_type ∧
          (∀ data, ∃ text, decodeBase types typeDie data = .ok text) ∨
        (∃ tag, typeDie.tag = .ok tag ∧ tag.isModifier = true ∧
          PrintsWithin types frame depth typeDie.typeOffset) ∨
        typeDie.tag = .ok .DW_TAG_structure_type ∧ frame ∧
          LoopPrints types (PrintsWithin types frame depth) typeDie.children)

def Printable (types : TypeEnv) (frame : Prop) (typeOffset : DwRes UWORD) : Prop :=
  ∃ depth, PrintsWithin types frame depth typeOffset

-- The types that the printer goes to from a type: through every modifier, be it a pointer, and
-- through the members of a structure up to the first that is not printed.
inductive Leads (types : TypeEnv) (frame : Prop) : DwRes UWORD → DwRes UWORD → Prop
  | modifier {offset : UWORD} {typeDie : TypeDie} {tag : TypeTag}
      (hdie : types.offdie offset = .ok typeDie) (htag : typeDie.tag = .ok tag)
      (hmodifier : tag.isModifier = true) :
      Leads types frame (.ok offset) typeDie.typeOffset
  | member {offset : UWORD} {typeDie : TypeDie} {member : MemberDie}
      (hdie : types.offdie offset = .ok typeDie)
      (htag : typeDie.tag = .ok .DW_TAG_structure_type) (hframe : frame)
      (hcomes : LoopComesTo types (Printable types frame) typeDie.children member) :
      Leads types frame (.ok offset) member.typeOffset

theorem LoopComesTo.mem {prints : DwRes UWORD → Prop} {children : List (DwRes MemberDie)}
    {member : MemberDie} (h : LoopComesTo types prints children member) :
    member ∈ dataMembers children := by
  induction h with
  | here hget =>
      rw [(getDataMembers_ok hget).1]
      exact List.mem_cons_self
  | later hget _ _ _ _ ih =>
      rw [(getDataMembers_ok hget).1]
      exact List.mem_cons_of_mem _ ih

end Graph

section Addresses

-- What is in `data_member_location` is the same at all times, and the expression of the
-- member comes to its end.
structure LocationKnown (var : VarEnv κ) (types : TypeEnv) (member : MemberDie) : Prop where
  same : ∀ requests, member.locAttribute types requests = member.locAttribute types 0
  ends : ∀ (locInfo : LocInfo) (s : Debugger κ),
    (getVarLocation (var.expr s) var.fuel member.dataLocation locInfo.freshExpr).1 ≠ .pending

-- As it is for a member with an offset and no expression.
theorem locationKnown_of_offset {member : MemberDie} {attr : LocAttribute}
    (hattr : member.dataMemberLocation = .ok attr) (hnone : member.dataLocation = .noEntry) :
    LocationKnown var types member where
  same requests := by
    unfold MemberDie.locAttribute
    rw [hattr]
  ends locInfo s := by
    unfold getVarLocation
    rw [hnone, Action.bind_of_ok (Action.fetch_apply _)]
    have hpush := pushInitial_fresh locInfo
    exact Action.bind_ne_pending (fun h => nomatch (congrArg Prod.fst hpush).symm.trans h)
      fun _ _ _ h => nomatch h

def LocationsKnown (var : VarEnv κ) (types : TypeEnv) : Prop :=
  ∀ offset typeDie, types.offdie offset = .ok typeDie →
    ∀ member ∈ dataMembers typeDie.children, LocationKnown var types member

variable {member : MemberDie}

theorem memberLocation_ok (env : Env κ) (h : LocationKnown var types member) (locInfo : LocInfo)
    (s : Debugger κ) :
    ∃ addr, memberLocation env var locInfo member s = (.ok addr, s) := by
  have hends := h.ends locInfo s
  unfold memberLocation
  cases hlocation : (getVarLocation (var.expr s) var.fuel member.dataLocation
      locInfo.freshExpr).1 with
  | ok addr => exact ⟨addr, rfl⟩
  | error code => exact ⟨_, rfl⟩
  | pending => exact absurd hlocation hends

-- Whether there is an address depends on the debug information only.
theorem memberAddr_cases (env : Env κ) (h : LocationKnown var types member) (locInfo : LocInfo)
    (varAddr : UWORD) (s : Debugger κ) :
    (member.addrFound types = .ok true ∧
        ∃ addr, memberAddr env var types locInfo varAddr member s = (.ok (some addr), s)) ∨
      (member.addrFound types = .ok false ∧
        memberAddr env var types locInfo varAddr member s = (.ok none, s)) ∨
      ∃ code, member.addrFound types = .error code ∧
        memberAddr env var types locInfo varAddr member s = (.error code, s) := by
  unfold MemberDie.addrFound
  by_cases hname : member.diename = .noEntry
  · rw [if_pos hname, memberAddr_unnamed hname]
    exact .inl ⟨rfl, varAddr, rfl⟩
  rw [if_neg hname, memberAddr_named hname, h.same s.log.length]
  cases (member.locAttribute types 0).whatform with
  | noEntry => exact .inr (.inr ⟨_, rfl, rfl⟩)
  | error => exact .inr (.inr ⟨_, rfl, rfl⟩)
  | ok form =>
      rw [DwRes.orReturn_ok_bind]
      dsimp only
      by_cases hconstant : form.isConstant = true
      · rw [if_pos hconstant, if_pos hconstant]
        cases (member.locAttribute types 0).formsdata with
        | noEntry => exact .inr (.inr ⟨_, rfl, rfl⟩)
        | error => exact .inr (.inr ⟨_, rfl, rfl⟩)
        | ok offset => exact .inl ⟨rfl, _, rfl⟩
      rw [if_neg hconstant, if_neg hconstant]
      by_cases hexpression : form.isExpression = true
      · obtain ⟨addr, haddr⟩ := memberLocation_ok env h locInfo s
        rw [if_pos hexpression, hexpression, Action.bind_of_ok haddr]
        exact .inl ⟨rfl, addr, rfl⟩
      · rw [if_neg hexpression, Bool.eq_false_iff.mpr hexpression]
        exact .inr (.inl ⟨rfl, rfl⟩)

theorem memberAddr_some_iff (env : Env κ) (h : LocationKnown var types member)
    (locInfo : LocInfo) (varAddr : UWORD) (s : Debugger κ) :
    (∃ addr, memberAddr env var types locInfo varAddr member s = (.ok (some addr), s)) ↔
      member.addrFound types = .ok true := by
  rcases memberAddr_cases env h locInfo varAddr s with
    ⟨hfound, haddr⟩ | ⟨hcut, hnone⟩ | ⟨code, hfailed, herror⟩
  · exact iff_of_true haddr hfound
  · rw [hcut, hnone]
    exact iff_of_false (fun ⟨_, h⟩ => nomatch h) fun h => nomatch h
  · rw [hfailed, herror]
    exact iff_of_false (fun ⟨_, h⟩ => nomatch h) fun h => nomatch h

theorem memberAddr_none_iff (env : Env κ) (h : LocationKnown var types member)
    (locInfo : LocInfo) (varAddr : UWORD) (s : Debugger κ) :
    memberAddr env var types locInfo varAddr member s = (.ok none, s) ↔
      member.addrFound types = .ok false := by
  rcases memberAddr_cases env h locInfo varAddr s with
    ⟨hfound, addr, hsome⟩ | ⟨hcut, hnone⟩ | ⟨code, hfailed, herror⟩
  · rw [hfound, hsome]
    exact iff_of_false (fun h => nomatch h) fun h => nomatch h
  · exact iff_of_true hnone hcut
  · rw [hfailed, herror]
    exact iff_of_false (fun h => nomatch h) fun h => nomatch h

end Addresses

section Loop

variable {debugee : Proc κ} {prints : DwRes UWORD → Prop} {children : List (DwRes MemberDie)}
  {member : MemberDie} {locInfo : LocInfo} {varAddr : UWORD}
  {sprintVal : DwRes UWORD → UWORD → DebuggerM κ CString} {s t : Debugger κ}

theorem sprintMembers_keeps {rel : Debugger κ → Debugger κ → Prop} (h : KeptByLooking env rel)
    (hval : ∀ typeOffset addr, (sprintVal typeOffset addr).Keeps rel) (passes i : Nat)
    (children : List (DwRes MemberDie)) :
    (sprintMembers env var types locInfo varAddr sprintVal passes i children).Keeps rel := by
  induction passes generalizing i children with
  | zero => exact h.refl
  | succ passes ih =>
      by_cases hget : ∀ next, getDataMembers children ≠ .ok next
      · rw [sprintMembers_stops hget]
        exact h.refl
      obtain ⟨⟨member, rest⟩, hget⟩ := not_forall_not.mp hget
      by_cases hname : member.diename = .error
      · intro s
        rw [sprintMembers_unread hget hname]
        exact h.refl s
      rw [sprintMembers_pass hget hname]
      refine h.bind (h.same (memberAddr_keeps _ _ _ _ _ _)) fun addr => ?_
      cases addr with
      | none => exact h.refl
      | some addr => exact h.bind (hval _ _) fun _ => h.bind (ih _ _) fun _ => h.refl

-- The members behind the first.
theorem known_behind {rest : List (DwRes MemberDie)}
    (hknown : ∀ other ∈ dataMembers children, LocationKnown var types other)
    (hget : getDataMembers children = .ok (member, rest)) :
    LocationKnown var types member ∧ ∀ other ∈ dataMembers rest, LocationKnown var types other := by
  rw [(getDataMembers_ok hget).1] at hknown
  exact List.forall_mem_cons.mp hknown

-- A loop that comes to its end has printed its members.
theorem MembersPrinted.loopPrints {entries : List (MemberEntry κ)} {cut : Option MemberDie}
    (h : MembersPrinted env var types locInfo varAddr sprintVal children s entries cut t)
    (hknown : ∀ other ∈ dataMembers children, LocationKnown var types other)
    (hasks : ∀ typeOffset addr, (sprintVal typeOffset addr).Keeps Asks)
    (hprints : ∀ typeOffset addr s text t, s.debugee = debugee →
      sprintVal typeOffset addr s = (.ok text, t) → prints typeOffset)
    (hs : s.debugee = debugee) : LoopPrints types prints children := by
  induction h with
  | last hget => exact .last hget
  | cut hget hname haddr =>
      have hfirst := (known_behind hknown hget).1
      exact .cut hget hname ((memberAddr_none_iff env hfirst locInfo varAddr _).mp haddr)
  | next hget hname haddr hval _ ih =>
      obtain ⟨hfirst, hbehind⟩ := known_behind hknown hget
      have hfound := (memberAddr_some_iff env hfirst locInfo varAddr _).mp ⟨_, haddr⟩
      exact .next hget hname hfound (hprints _ _ _ _ _ hs hval)
        (ih hbehind ((debugee_of_asks (hasks _ _) hval).trans hs))

-- Where the members' types are printed, there is no error.
theorem LoopPrints.sprintMembers_ne_error (h : LoopPrints types prints children)
    (hknown : ∀ other ∈ dataMembers children, LocationKnown var types other)
    (hasks : ∀ typeOffset addr, (sprintVal typeOffset addr).Keeps Asks)
    (hprints : ∀ typeOffset, prints typeOffset → ∀ addr s, s.debugee = debugee →
      ∀ code, (sprintVal typeOffset addr s).1 ≠ .error code)
    (hs : s.debugee = debugee) (passes i : Nat) (code : Int) :
    (sprintMembers env var types locInfo varAddr sprintVal passes i children s).1 ≠
      .error code := by
  induction h generalizing passes i s with
  | last hget =>
      rw [sprintMembers_stops hget]
      exact fun h => nomatch h
  | cut hget hname haddr =>
      cases passes with
      | zero => exact fun h => nomatch h
      | succ passes =>
          have hfirst := (known_behind hknown hget).1
          have hcut := (memberAddr_none_iff env hfirst locInfo varAddr s).mpr haddr
          rw [sprintMembers_pass hget hname, Action.bind_of_ok hcut]
          exact fun h => nomatch h
  | next hget hname haddr hprinted _ ih =>
      cases passes with
      | zero => exact fun h => nomatch h
      | succ passes =>
          obtain ⟨hfirst, hbehind⟩ := known_behind hknown hget
          obtain ⟨addr, hfound⟩ := (memberAddr_some_iff env hfirst locInfo varAddr s).mpr haddr
          rw [sprintMembers_pass hget hname, Action.bind_of_ok hfound]
          refine Action.bind_ne_error (hprints _ hprinted addr s hs code) fun val t hval => ?_
          have ht : t.debugee = debugee := (debugee_of_asks (hasks _ _) hval).trans hs
          exact Action.bind_ne_error (ih hbehind ht passes (i + 1)) fun text u _ h => nomatch h

-- The loop does not come behind a member whose type is still being printed.
theorem LoopComesTo.sprintMembers_pending (h : LoopComesTo types prints children member)
    (hknown : ∀ other ∈ dataMembers children, LocationKnown var types other)
    (hasks : ∀ typeOffset addr, (sprintVal typeOffset addr).Keeps Asks)
    (hprints : ∀ typeOffset, prints typeOffset → ∀ addr s, s.debugee = debugee →
      ∀ code, (sprintVal typeOffset addr s).1 ≠ .error code)
    (hmember : ∀ addr s, s.debugee = debugee → (sprintVal member.typeOffset addr s).1 = .pending)
    (hs : s.debugee = debugee) {passes : Nat} (hpasses : children.length ≤ passes) (i : Nat) :
    (sprintMembers env var types locInfo varAddr sprintVal passes i children s).1 = .pending := by
  induction h generalizing passes i s with
  | here hget hname haddr =>
      obtain ⟨passes, rfl⟩ : ∃ n, passes = n + 1 := ⟨passes - 1, by
        have hlength := (getDataMembers_ok hget).2.2
        omega⟩
      have hfirst := (known_behind hknown hget).1
      obtain ⟨addr, hfound⟩ := (memberAddr_some_iff env hfirst locInfo varAddr s).mpr haddr
      rw [sprintMembers_pass hget hname, Action.bind_of_ok hfound]
      exact Action.bind_pending (hmember addr s hs) _
  | later hget hname haddr hprinted _ ih =>
      obtain ⟨hfirst, hbehind⟩ := known_behind hknown hget
      have hlength := (getDataMembers_ok hget).2.2
      obtain ⟨passes, rfl⟩ : ∃ n, passes = n + 1 := ⟨passes - 1, by omega⟩
      obtain ⟨addr, hfound⟩ := (memberAddr_some_iff env hfirst locInfo varAddr s).mpr haddr
      rw [sprintMembers_pass hget hname, Action.bind_of_ok hfound]
      have hval := hprints _ hprinted addr s hs
      dsimp only
      rcases hrun : sprintVal _ addr s with ⟨val | code | _, t⟩ <;> rw [hrun] at hval
      · have ht : t.debugee = debugee := (debugee_of_asks (hasks _ _) hrun).trans hs
        rw [Action.bind_of_ok hrun]
        exact Action.bind_pending (ih hbehind hmember ht (by omega) (i + 1)) _
      · exact absurd rfl (hval code)
      · rw [Action.bind_of_pending hrun]

-- The loop comes to its end where each member that it comes to is printed or not in the end.
theorem sprintMembers_ends (hknown : ∀ other ∈ dataMembers children, LocationKnown var types other)
    (hasks : ∀ typeOffset addr, (sprintVal typeOffset addr).Keeps Asks)
    (hprints : ∀ typeOffset addr s text t, s.debugee = debugee →
      sprintVal typeOffset addr s = (.ok text, t) → prints typeOffset)
    (hends : ∀ other, LoopComesTo types prints children other →
      ∀ addr s, s.debugee = debugee → (sprintVal other.typeOffset addr s).1 ≠ .pending)
    (hs : s.debugee = debugee) (passes i : Nat) :
    (sprintMembers env var types locInfo varAddr sprintVal passes i children s).1 ≠ .pending := by
  induction passes generalizing i children s with
  | zero => exact fun h => nomatch h
  | succ passes ih =>
      by_cases hget : ∀ next, getDataMembers children ≠ .ok next
      · rw [sprintMembers_stops hget]
        exact fun h => nomatch h
      obtain ⟨⟨member, rest⟩, hget⟩ := not_forall_not.mp hget
      by_cases hname : member.diename = .error
      · rw [sprintMembers_unread hget hname]
        exact fun h => nomatch h
      obtain ⟨hfirst, hbehind⟩ := known_behind hknown hget
      rw [sprintMembers_pass hget hname]
      rcases memberAddr_cases env hfirst locInfo varAddr s with
        ⟨hfound, addr, haddr⟩ | ⟨-, haddr⟩ | ⟨code, -, haddr⟩
      · rw [Action.bind_of_ok haddr]
        refine Action.bind_ne_pending (hends member (.here hget hname hfound) addr s hs)
          fun val t hval => ?_
        have hprinted : prints member.typeOffset := hprints _ _ _ _ _ hs hval
        refine Action.bind_ne_pending (ih hbehind (fun other hcomes => ?_)
          ((debugee_of_asks (hasks _ _) hval).trans hs) (i + 1)) fun text u _ h => nomatch h
        exact hends other (.later hget hname hfound hprinted hcomes)
      · rw [Action.bind_of_ok haddr]
        exact fun h => nomatch h
      · rw [Action.bind_of_error haddr]
        exact fun h => nomatch h

end Loop

end VDebugger
