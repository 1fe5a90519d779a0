import VDebugger.Command.Granted
import VDebugger.Handlers.Session
import VDebugger.Var.Buffer
import VDebugger.Var.Offsets

namespace VDebugger

open Machine

variable {κ α β : Type} {env : Env κ} {var : VarEnv κ} {types : TypeEnv}

section Keeps

variable {rel : Debugger κ → Debugger κ → Prop}

theorem orReturn_keeps (h : KeptByLooking env rel) (res : DwRes α) :
    (res.orReturn : DebuggerM κ α).Keeps rel := h.same fun s => by cases res <;> rfl

theorem structLocInfo_keeps (h : KeptByLooking env rel) (var : VarEnv κ) (varAddr : UWORD) :
    (structLocInfo env var varAddr).Keeps rel := by
  have hfetch : (Action.fetch : DebuggerM κ (Debugger κ)).Keeps rel := h.refl
  exact h.bind hfetch fun s => initLocInfo_keeps h var _

end Keeps

section Asks

-- The debugee is looked at only, and each request for it is filed.
structure Asks (s t : Debugger κ) : Prop where
  debugee : t.debugee = s.debugee
  grown : Grown s t

theorem Asks.refl (s : Debugger κ) : Asks s s := ⟨rfl, Grown.refl s⟩

theorem Asks.trans (s t u : Debugger κ) (h : Asks s t) (h' : Asks t u) : Asks s u :=
  ⟨h'.debugee.trans h.debugee, Grown.trans s t u h.grown h'.grown⟩

theorem asks_bind {x : DebuggerM κ α} {f : α → DebuggerM κ β} (hx : x.Keeps Asks)
    (hf : ∀ a, (f a).Keeps Asks) : (x >>= f).Keeps Asks :=
  Action.Keeps.bind Asks.trans hx hf

-- A call that does nothing to the debugger's state.
theorem asks_of_same {x : DebuggerM κ α} (h : ∀ s, (x s).2 = s) : x.Keeps Asks := by
  intro s
  rw [h s]
  exact Asks.refl s

theorem grown_of_asks {x : DebuggerM κ α} (h : x.Keeps Asks) : x.Keeps Grown := fun s => (h s).grown

theorem debugee_of_asks {x : DebuggerM κ α} (h : x.Keeps Asks) {s t : Debugger κ} {a : α}
    (hrun : x s = (.ok a, t)) : t.debugee = s.debugee := by
  have hsame := (h s).debugee
  rwa [hrun] at hsame

theorem asks_kept (env : Env κ) : KeptByLooking env Asks where
  refl := Asks.refl
  trans := Asks.trans
  getRegs s := ⟨(getRegsStruct_looksUp env s).debugee, (grown_kept env).getRegs s⟩
  peekData addr s := ⟨(ptracePeekData_looksUp env addr s).debugee, (grown_kept env).peekData addr s⟩
  search _ s := ⟨rfl, Grown.refl s⟩

theorem orReturn_asks (res : DwRes α) : (res.orReturn : DebuggerM κ α).Keeps Asks :=
  asks_of_same fun s => by cases res <;> rfl

theorem structLocInfo_asks (var : VarEnv κ) (varAddr : UWORD) :
    (structLocInfo env var varAddr).Keeps Asks :=
  structLocInfo_keeps (asks_kept env) var varAddr

theorem sprintf_asks (start curOffset : Nat) (printOutput text : CString) :
    (sprintf start printOutput curOffset text : DebuggerM κ (CString × Nat)).Keeps Asks := by
  refine asks_of_same fun s => ?_
  unfold sprintf
  split_ifs <;> rfl

theorem sprintLabelTo_asks (start i curOffset : Nat) (member : MemberDie) (printOutput : CString) :
    (sprintLabelTo start i member printOutput curOffset :
      DebuggerM κ (CString × Nat)).Keeps Asks := by
  unfold sprintLabelTo
  split_ifs
  · refine asks_bind (sprintf_asks _ _ _ _) fun output => ?_
    cases member.diename with
    | error => exact Asks.refl
    | noEntry | ok memberName => exact sprintf_asks _ _ _ _
  · refine asks_bind Asks.refl fun output => ?_
    cases member.diename with
    | error => exact Asks.refl
    | noEntry | ok memberName => exact sprintf_asks _ _ _ _

theorem sprintMembersTo_asks {locInfo : LocInfo} {varAddr : UWORD}
    {sprintTo : DwRes UWORD → UWORD → CString → Nat → DebuggerM κ CString}
    (hval : ∀ typeOffset addr output start, (sprintTo typeOffset addr output start).Keeps Asks)
    (start passes i : Nat) (children : List (DwRes MemberDie)) (printOutput : CString)
    (curOffset : Nat) :
    (sprintMembersTo env var types locInfo varAddr sprintTo start passes i children printOutput
      curOffset).Keeps Asks := by
  induction passes generalizing i children printOutput curOffset with
  | zero => exact asks_bind (sprintf_asks _ _ _ _) fun _ => Asks.refl
  | succ passes ih =>
      cases hget : getDataMembers children with
      | noEntry | error =>
          rw [sprintMembersTo, hget]
          exact asks_bind (sprintf_asks _ _ _ _) fun _ => Asks.refl
      | ok next =>
          rw [sprintMembersTo_pass hget]
          refine asks_bind (sprintLabelTo_asks _ _ _ _ _) fun label => ?_
          refine asks_bind (asks_of_same (memberAddr_keeps _ _ _ _ _ _)) fun addr => ?_
          cases addr with
          | none => exact Asks.refl
          | some addr => exact asks_bind (hval _ _ _ _) fun output => ih _ _ _ _

theorem sprintStructTo_asks {varAddr : UWORD}
    {sprintTo : DwRes UWORD → UWORD → CString → Nat → DebuggerM κ CString}
    (hval : ∀ typeOffset addr output start, (sprintTo typeOffset addr output start).Keeps Asks)
    (structTypeDie : TypeDie) (printOutput : CString) (start : Nat) :
    (sprintStructTo env var types sprintTo varAddr structTypeDie printOutput start).Keeps Asks :=
  asks_bind (structLocInfo_asks var varAddr) fun _ => asks_bind (sprintf_asks _ _ _ _) fun _ =>
    sprintMembersTo_asks hval _ _ _ _ _ _

-- So does the printer, for all types.
theorem sprintValTo_asks (fuel : Nat) (typeOffset : DwRes UWORD) (varAddr : UWORD)
    (printOutput : CString) (start : Nat) :
    (sprintValTo env var types fuel typeOffset varAddr printOutput start).Keeps Asks := by
  induction fuel generalizing typeOffset varAddr printOutput start with
  | zero => exact Asks.refl
  | succ fuel ih =>
      refine asks_bind (orReturn_asks _) fun offset => asks_bind (orReturn_asks _) fun typeDie =>
        asks_bind (orReturn_asks _) fun typeTag => ?_
      cases typeTag with
      | DW_TAG_base_type =>
          exact asks_bind ((asks_kept env).peekData _) fun _ => asks_bind (orReturn_asks _) fun _ =>
            asks_bind (sprintf_asks _ _ _ _) fun _ => Asks.refl
      | DW_TAG_structure_type => exact sprintStructTo_asks ih typeDie printOutput start
      | DW_TAG_array_type | DW_TAG_class_type | DW_TAG_union_type | DW_TAG_member =>
          exact Asks.refl
      | other tag => exact Asks.refl
      | DW_TAG_atomic_type | DW_TAG_const_type | DW_TAG_immutable_type | DW_TAG_packed_type
      | DW_TAG_pointer_type | DW_TAG_reference_type | DW_TAG_restrict_type
      | DW_TAG_rvalue_reference_type | DW_TAG_shared_type | DW_TAG_volatile_type
      | DW_TAG_typedef => exact ih _ _ _ _

end Asks

section Writes

-- Wherever the output starts, the call writes this text if it fits and the kernel refuses none
-- of the call's requests.
def Writes (env : Env κ) (debugee : Proc κ) (x : CString → Nat → DebuggerM κ CString)
    (text : CString) : Prop :=
  ∀ (s : Debugger κ) (printOutput : CString) (start : Nat), s.debugee = debugee →
    Granted env s (x printOutput start s).2 → start + text.length < printOutput.length →
      ∃ t, x printOutput start s = (.ok (writeText '\x00' printOutput start text), t)

-- A member with a name, and a constant for its offset.
structure ConstantMember (member : MemberDie) (offset : WORD) : Prop where
  named : ∃ memberName, member.diename = .ok memberName
  located : ∃ attr form, member.dataMemberLocation = .ok attr ∧ attr.whatform = .ok form ∧
    form.isConstant = true ∧ attr.formsdata = .ok offset

-- The call writes this text for the member, behind the start of the object.
def WritesMember (env : Env κ) (debugee : Proc κ)
    (sprintTo : DwRes UWORD → UWORD → CString → Nat → DebuggerM κ CString) (varAddr : UWORD)
    (member : MemberDie) (text : CString) : Prop :=
  '\x00' ∉ text ∧ ∃ offset, ConstantMember member offset ∧
    Writes env debugee (sprintTo member.typeOffset (offset + varAddr)) text

variable {debugee : Proc κ} {locInfo : LocInfo} {varAddr : UWORD} {member : MemberDie}
  {offset : WORD} {s t : Debugger κ} {start curOffset i passes : Nat}
  {printOutput label val : CString}

theorem ConstantMember.readable_name (h : ConstantMember member offset) :
    member.diename ≠ .error := by
  obtain ⟨memberName, hname⟩ := h.named
  rw [hname]
  exact fun h => by cases h

theorem ConstantMember.memberAddr_eq (h : ConstantMember member offset) (s : Debugger κ) :
    memberAddr env var types locInfo varAddr member s = (.ok (some (offset + varAddr)), s) := by
  obtain ⟨memberName, hname⟩ := h.named
  obtain ⟨attr, form, hattr, hform, hconstant, hoffset⟩ := h.located
  have hnamed : member.diename ≠ .noEntry := by
    rw [hname]
    exact fun h => by cases h
  exact (memberAddr_constant_eq_ok hnamed (locAttribute_of_ok hattr _) hform hconstant).mpr
    ⟨offset, hoffset, rfl⟩

theorem ConstantMember.label_eq (h : ConstantMember member offset) (s : Debugger κ)
    (hfits : start + curOffset + (memberLabel i member.shownName).length < printOutput.length) :
    sprintLabelTo start i member printOutput curOffset s =
      (.ok (writeText '\x00' printOutput (start + curOffset) (memberLabel i member.shownName),
        curOffset + (memberLabel i member.shownName).length), s) :=
  sprintLabelTo_eq_ok.mpr ⟨h.readable_name, sprintf_eq_ok.mpr ⟨hfits, rfl, rfl⟩⟩

-- A value behind what is written already.
theorem Writes.behind {x : CString → Nat → DebuggerM κ CString} (h : Writes env debugee x val)
    (hdebugee : s.debugee = debugee)
    (hgranted : Granted env s (x (writeText '\x00' printOutput (start + curOffset) label)
      (start + (curOffset + label.length)) s).2)
    (hfits : start + curOffset + (label ++ val).length < printOutput.length) :
    ∃ t, x (writeText '\x00' printOutput (start + curOffset) label)
      (start + (curOffset + label.length)) s =
        (.ok (writeText '\x00' printOutput (start + curOffset) (label ++ val)), t) := by
  have hlabel : start + curOffset + label.length < printOutput.length := fits_of_append hfits
  obtain ⟨hroom, hresult⟩ := (writeText_behind hlabel).mpr ⟨hfits, rfl⟩
  obtain ⟨t, hrun⟩ := h s _ _ hdebugee hgranted hroom
  exact ⟨t, hrun.trans (by rw [hresult])⟩

-- The loop writes the members' texts one behind the other, each with its label before it.
theorem sprintMembersTo_writes {sprintTo : DwRes UWORD → UWORD → CString → Nat → DebuggerM κ CString}
    (hasks : ∀ typeOffset addr output start, (sprintTo typeOffset addr output start).Keeps Asks)
    {children : List (DwRes MemberDie)} {texts : List CString}
    (hpasses : children.length ≤ passes) (hreads : ReadsMembers children)
    (htexts : List.Forall₂ (WritesMember env debugee sprintTo varAddr) (dataMembers children) texts)
    (hdebugee : s.debugee = debugee)
    (hgranted : Granted env s (sprintMembersTo env var types locInfo varAddr sprintTo start passes i
      children printOutput curOffset s).2)
    (hfits : start + curOffset + (entriesText i
      (((dataMembers children).map MemberDie.shownName).zip texts)).length < printOutput.length) :
    ∃ t, sprintMembersTo env var types locInfo varAddr sprintTo start passes i children printOutput
      curOffset s = (.ok (writeText '\x00' printOutput (start + curOffset) (entriesText i
        (((dataMembers children).map MemberDie.shownName).zip texts))), t) := by
  induction passes generalizing i children texts printOutput curOffset s with
  | zero =>
      have hnone : children = [] := List.length_eq_zero_iff.mp (Nat.le_zero.mp hpasses)
      subst hnone
      exact ⟨s, (sprintMembersTo_stops fun next h => by cases h).mpr ⟨hfits, rfl, rfl⟩⟩
  | succ passes ih =>
      by_cases hget : ∀ next, getDataMembers children ≠ .ok next
      · have hnone := (getDataMembers_stops hget).mp hreads
        rw [hnone] at hfits ⊢
        exact ⟨s, (sprintMembersTo_stops hget).mpr ⟨hfits, rfl, rfl⟩⟩
      obtain ⟨⟨member, rest⟩, hget⟩ := not_forall_not.mp hget
      obtain ⟨hmembers, hreads', hlength⟩ := getDataMembers_ok hget
      rw [hmembers] at htexts hfits ⊢
      cases htexts with
      | @cons _ val _ texts hfirst hbehind =>
          obtain ⟨hends, offset, hconstant, hwrites⟩ := hfirst
          rw [List.map_cons, List.zip_cons_cons, entriesText] at hfits ⊢
          dsimp only at hfits ⊢
          have hvalue : start + curOffset +
              (memberLabel i member.shownName ++ val).length < printOutput.length :=
            fits_of_append hfits
          have hlabel : start + curOffset + (memberLabel i member.shownName).length <
              printOutput.length := fits_of_append hvalue
          rw [sprintMembersTo_pass hget, Action.bind_of_ok (hconstant.label_eq s hlabel),
            Action.bind_of_ok (hconstant.memberAddr_eq s)] at hgranted ⊢
          dsimp only at hgranted ⊢
          obtain ⟨hgranted, hloop⟩ := hgranted.bind (grown_of_asks (hasks _ _ _ _)) fun output =>
            grown_of_asks (sprintMembersTo_asks hasks _ _ _ _ _ _)
          obtain ⟨t, hrun⟩ := hwrites.behind hdebugee hgranted hvalue
          have hsame := debugee_of_asks (hasks _ _ _ _) hrun
          have hgranted' := hloop _ t hrun
          rw [Action.bind_of_ok hrun]
          rw [strlen_behind hvalue hends, Nat.add_assoc, ← List.length_append] at hgranted' ⊢
          obtain ⟨hroom, hresult⟩ := (writeText_behind hvalue).mpr ⟨hfits, rfl⟩
          rw [hresult]
          exact ih (by omega) (hreads'.mp hreads) hbehind (hsame.trans hdebugee) hgranted' hroom

-- The calls of libunwind in `init_loc_info` succeed.
structure FrameKnown (env : Env κ) (var : VarEnv κ) (debugee : Proc κ) : Prop where
  init : ¬env.unwInitRemote debugee < 0
  step : ¬env.unwStep debugee < 0
  caller : env.unwStep debugee ≠ 0 →
    ¬(var.unwGetRegIp debugee).1 < 0 ∧ ¬(env.unwGetRegSp debugee).1 < 0

theorem FrameKnown.frameInfo_eq (h : FrameKnown env var debugee) (locInfo : LocInfo) :
    ∃ filled, frameInfo env var debugee locInfo = .ok filled := by
  unfold frameInfo
  rw [if_neg h.init, if_neg h.step]
  by_cases houter : env.unwStep debugee = 0
  · rw [if_pos houter]
    exact ⟨locInfo, rfl⟩
  · obtain ⟨hip, hsp⟩ := h.caller houter
    rw [if_neg houter, if_neg hip, if_neg hsp]
    exact ⟨_, rfl⟩

theorem structLocInfo_of_granted (hframe : FrameKnown env var debugee)
    (hdebugee : s.debugee = debugee)
    (hgranted : Granted env s (structLocInfo env var varAddr s).2) :
    ∃ locInfo t, structLocInfo env var varAddr s = (.ok locInfo, t) := by
  unfold structLocInfo at hgranted ⊢
  rw [Action.bind_of_ok (Action.fetch_apply s), initLocInfo_eq] at hgranted ⊢
  have hregs := hgranted.getRegs_bind
  subst hdebugee
  obtain ⟨filled, hfilled⟩ := hframe.frameInfo_eq
    { loadAddress := s.loadAddress, hInitial := 1, inital := varAddr,
      calleeRegsCurValue := s.debugee.regs }
  exact ⟨filled, s.note .getRegs true, (Action.bind_of_ok hregs _).trans
    (congrArg (fun found => (found, s.note .getRegs true)) hfilled)⟩

-- A structure is written as its members' texts, in braces.
theorem sprintStructTo_writes {sprintTo : DwRes UWORD → UWORD → CString → Nat → DebuggerM κ CString}
    (hasks : ∀ typeOffset addr output start, (sprintTo typeOffset addr output start).Keeps Asks)
    (hframe : FrameKnown env var debugee) {structTypeDie : TypeDie} {texts : List CString}
    (hreads : ReadsMembers structTypeDie.children)
    (htexts : List.Forall₂ (WritesMember env debugee sprintTo varAddr)
      (dataMembers structTypeDie.children) texts) :
    Writes env debugee (sprintStructTo env var types sprintTo varAddr structTypeDie)
      (structText (((dataMembers structTypeDie.children).map MemberDie.shownName).zip texts)) := by
  intro s printOutput start hdebugee hgranted hfits
  rw [← structText_eq] at hfits ⊢
  unfold sprintStructTo at hgranted ⊢
  obtain ⟨hinit, hbehind⟩ := hgranted.bind (grown_of_asks (structLocInfo_asks var varAddr))
    fun locInfo => grown_of_asks (asks_bind (sprintf_asks _ _ _ _) fun output =>
      sprintMembersTo_asks hasks _ _ _ _ _ _)
  obtain ⟨locInfo, u, hlocInfo⟩ := structLocInfo_of_granted hframe hdebugee hinit
  have hgranted' := hbehind locInfo u hlocInfo
  have hopen : start + 0 + ['{'].length < printOutput.length := by
    rw [List.length_cons] at hfits
    rw [List.length_singleton]
    omega
  have hbrace : sprintf start printOutput 0 ['{'] u =
      (.ok (writeText '\x00' printOutput (start + 0) ['{'], 0 + ['{'].length), u) :=
    sprintf_eq_ok.mpr ⟨hopen, rfl, rfl⟩
  rw [Action.bind_of_ok hlocInfo]
  rw [Action.bind_of_ok hbrace] at hgranted' ⊢
  obtain ⟨hroom, hresult⟩ := (writeText_behind hopen).mpr ⟨hfits, rfl⟩
  obtain ⟨t, hrun⟩ := sprintMembersTo_writes hasks (Nat.le_refl _) hreads htexts
    ((debugee_of_asks (structLocInfo_asks var varAddr) hlocInfo).trans hdebugee) hgranted' hroom
  exact ⟨t, hrun.trans (congrArg (fun output => (Outcome.ok output, t)) hresult.symm)⟩

-- A refused PTRACE_PEEKDATA would be the end of a call that starts with one.
theorem Granted.peekData_bind {f : UWORD → DebuggerM κ α} {addr : UWORD}
    (h : Granted env s ((ptracePeekData env addr >>= f) s).2) :
    ptracePeekData env addr s =
      (.ok (readWord s.debugee.mem addr.toNat), s.note (.peekData addr) true) := by
  cases hfault : env.fault s.log.length with
  | false => exact ptracePeekData_of_granted hfault addr
  | true =>
      rw [Action.bind_of_error (ptracePeekData_of_refused hfault addr)] at h
      rw [h _ (Nat.le_refl _) (Nat.lt_succ_self _)] at hfault
      cases hfault

theorem sprintBaseTo_writes {typeDie : TypeDie} {text : CString}
    (htext : decodeBase types typeDie (readWord debugee.mem varAddr.toNat) = .ok text) :
    Writes env debugee (sprintBaseTo env types varAddr typeDie) text := by
  intro s printOutput start hdebugee hgranted hfits
  unfold sprintBaseTo at hgranted ⊢
  have hdata := hgranted.peekData_bind
  rw [hdebugee] at hdata
  have hwritten : sprintf start printOutput 0 text (s.note (.peekData varAddr) true) =
      (.ok (writeText '\x00' printOutput start text, 0 + text.length),
        s.note (.peekData varAddr) true) :=
    sprintf_eq_ok.mpr ⟨hfits, rfl, rfl⟩
  rw [Action.bind_of_ok hdata, htext, DwRes.orReturn_ok_bind, Action.bind_of_ok hwritten]
  exact ⟨_, rfl⟩

end Writes

section Plain

-- A type of this depth at most, with which no call of libdwarf fails: a base type that can be
-- decoded, a modifier of a plain type, or a structure whose members have names, constants for
-- their offsets and plain types.
inductive PlainType (types : TypeEnv) : Nat → DwRes UWORD → Prop
  | base {depth : Nat} {offset : UWORD} {typeDie : TypeDie}
      (hdie : types.offdie offset = .ok typeDie) (htag : typeDie.tag = .ok .DW_TAG_base_type)
      (hdecoded : ∀ data, ∃ text, decodeBase types typeDie data = .ok text) :
      PlainType types (depth + 1) (.ok offset)
  | modifier {depth : Nat} {offset : UWORD} {typeDie : TypeDie} {tag : TypeTag}
      (hdie : types.offdie offset = .ok typeDie) (htag : typeDie.tag = .ok tag)
      (hmodifier : tag.isModifier = true) (hrest : PlainType types depth typeDie.typeOffset) :
      PlainType types (depth + 1) (.ok offset)
  | struct {depth : Nat} {offset : UWORD} {typeDie : TypeDie}
      (hdie : types.offdie offset = .ok typeDie)
      (htag : typeDie.tag = .ok .DW_TAG_structure_type)
      (hreadable : ∀ child ∈ typeDie.children, ReadableChild child)
      (hconstant : ∀ member ∈ dataMembers typeDie.children, ∃ offset, ConstantMember member offset)
      (hmembers : ∀ member ∈ dataMembers typeDie.children,
        PlainType types depth member.typeOffset) :
      PlainType types (depth + 1) (.ok offset)

-- A structure of such members.
structure PlainStruct (types : TypeEnv) (depth : Nat) (structTypeDie : TypeDie) : Prop where
  readable : ∀ child ∈ structTypeDie.children, ReadableChild child
  constant : ∀ member ∈ dataMembers structTypeDie.children, ∃ offset, ConstantMember member offset
  plain : ∀ member ∈ dataMembers structTypeDie.children, PlainType types depth member.typeOffset

variable {depth fuel : Nat} {offset varAddr : UWORD} {typeDie : TypeDie} {tag : TypeTag}
  {debugee : Proc κ}

theorem sprintValTo_base (hdie : types.offdie offset = .ok typeDie)
    (htag : typeDie.tag = .ok .DW_TAG_base_type) :
    sprintValTo env var types (fuel + 1) (.ok offset) varAddr =
      sprintBaseTo env types varAddr typeDie := by
  funext printOutput start
  simp only [sprintValTo, DwRes.orReturn_ok_bind, hdie, htag]

theorem sprintValTo_modifier (hdie : types.offdie offset = .ok typeDie)
    (htag : typeDie.tag = .ok tag) (hmodifier : tag.isModifier = true) :
    sprintValTo env var types (fuel + 1) (.ok offset) varAddr =
      sprintValTo env var types fuel typeDie.typeOffset varAddr := by
  funext printOutput start
  simp only [sprintValTo, DwRes.orReturn_ok_bind, hdie, htag]
  cases tag <;> first | rfl | cases hmodifier

theorem sprintValTo_struct (hdie : types.offdie offset = .ok typeDie)
    (htag : typeDie.tag = .ok .DW_TAG_structure_type) :
    sprintValTo env var types (fuel + 1) (.ok offset) varAddr =
      sprintStructTo env var types (sprintValTo env var types fuel) varAddr typeDie := by
  funext printOutput start
  simp only [sprintValTo, DwRes.orReturn_ok_bind, hdie, htag]

-- A text for each entry of a list that has one.
theorem exists_forall₂ {rel : α → β → Prop} {as : List α} (h : ∀ a ∈ as, ∃ b, rel a b) :
    ∃ bs, List.Forall₂ rel as bs := by
  induction as with
  | nil => exact ⟨[], .nil⟩
  | cons a as ih =>
      obtain ⟨b, hb⟩ := h a List.mem_cons_self
      obtain ⟨bs, hbs⟩ := ih fun c hc => h c (List.mem_cons_of_mem _ hc)
      exact ⟨b :: bs, .cons hb hbs⟩

theorem nul_notMem_entriesText {i : Nat} {entries : List (CString × CString)}
    (h : ∀ entry ∈ entries, '\x00' ∉ entry.1 ∧ '\x00' ∉ entry.2) :
    '\x00' ∉ entriesText i entries := by
  induction entries generalizing i with
  | nil => exact fun h => absurd (List.mem_singleton.mp h) (by decide)
  | cons entry entries ih =>
      obtain ⟨hname, hval⟩ := h entry List.mem_cons_self
      intro hmem
      rcases List.mem_append.mp hmem with hmem | hmem
      · rcases List.mem_append.mp hmem with hmem | hmem
        · exact nul_notMem_memberLabel hname hmem
        · exact hval hmem
      · exact ih (fun other hother => h other (List.mem_cons_of_mem _ hother)) hmem

-- The texts of a structure's members, from which its own text is made.
def MemberTexts (env : Env κ) (var : VarEnv κ) (types : TypeEnv) (fuel : Nat) (debugee : Proc κ)
    (varAddr : UWORD) (structTypeDie : TypeDie) (texts : List CString) : Prop :=
  List.Forall₂ (WritesMember env debugee (sprintValTo env var types fuel) varAddr)
    (dataMembers structTypeDie.children) texts

-- The members' names, each with its text.
def memberEntries (structTypeDie : TypeDie) (texts : List CString) : List (CString × CString) :=
  ((dataMembers structTypeDie.children).map MemberDie.shownName).zip texts

theorem nul_notMem_structText {structTypeDie : TypeDie} {texts : List CString}
    (hnames : NamesEnd structTypeDie.children) (htexts : ∀ text ∈ texts, '\x00' ∉ text) :
    '\x00' ∉ structText (memberEntries structTypeDie texts) := by
  rw [← structText_eq]
  intro h
  refine (List.mem_cons.mp h).elim (by decide) (nul_notMem_entriesText fun entry hentry => ?_)
  obtain ⟨hname, htext⟩ := List.of_mem_zip hentry
  obtain ⟨member, hmember, heq⟩ := List.mem_map.mp hname
  exact ⟨heq ▸ hnames member hmember, htexts entry.2 htext⟩

theorem MemberTexts.writes {structTypeDie : TypeDie} {texts : List CString}
    (h : MemberTexts env var types fuel debugee varAddr structTypeDie texts)
    (hframe : FrameKnown env var debugee)
    (hreadable : ∀ child ∈ structTypeDie.children, ReadableChild child) :
    Writes env debugee
      (sprintStructTo env var types (sprintValTo env var types fuel) varAddr structTypeDie)
      (structText (memberEntries structTypeDie texts)) :=
  sprintStructTo_writes (sprintValTo_asks fuel) hframe (readsMembers_of_readable hreadable) h

theorem MemberTexts.texts_end {structTypeDie : TypeDie} {texts : List CString}
    (h : MemberTexts env var types fuel debugee varAddr structTypeDie texts) :
    ∀ text ∈ texts, '\x00' ∉ text := by
  unfold MemberTexts at h
  generalize dataMembers structTypeDie.children = members at h
  induction h with
  | nil => exact fun text htext => absurd htext List.not_mem_nil
  | cons hfirst _ ih => exact List.forall_mem_cons.mpr ⟨hfirst.1, ih⟩

-- The texts of the members, where each has one at every address.
theorem exists_memberTexts {structTypeDie : TypeDie} (varAddr : UWORD)
    (hconstant : ∀ member ∈ dataMembers structTypeDie.children,
      ∃ offset, ConstantMember member offset)
    (hmembers : ∀ member ∈ dataMembers structTypeDie.children, ∀ addr, ∃ text, '\x00' ∉ text ∧
      Writes env debugee (sprintValTo env var types fuel member.typeOffset addr) text) :
    ∃ texts, MemberTexts env var types fuel debugee varAddr structTypeDie texts := by
  refine exists_forall₂ fun member hmember => ?_
  obtain ⟨offset, hoffset⟩ := hconstant member hmember
  obtain ⟨text, hends, hwrites⟩ := hmembers member hmember (offset + varAddr)
  exact ⟨text, hends, offset, hoffset, hwrites⟩

-- A plain type has a text at each address. The induction is on the way down through the types.
theorem PlainType.writes {typeOffset : DwRes UWORD} (h : PlainType types depth typeOffset)
    (hends : types.TextsEnd) (hframe : FrameKnown env var debugee) (hfuel : depth ≤ fuel)
    (varAddr : UWORD) :
    ∃ text, '\x00' ∉ text ∧
      Writes env debugee (sprintValTo env var types fuel typeOffset varAddr) text := by
  induction h generalizing fuel varAddr with
  | base hdie htag hdecoded =>
      obtain ⟨fuel, rfl⟩ : ∃ n, fuel = n + 1 := ⟨fuel - 1, by omega⟩
      obtain ⟨text, htext⟩ := hdecoded (readWord debugee.mem varAddr.toNat)
      rw [sprintValTo_base hdie htag]
      exact ⟨text, nul_notMem_decodeBase hends.formatDouble htext, sprintBaseTo_writes htext⟩
  | modifier hdie htag hmodifier _ ih =>
      obtain ⟨fuel, rfl⟩ : ∃ n, fuel = n + 1 := ⟨fuel - 1, by omega⟩
      rw [sprintValTo_modifier hdie htag hmodifier]
      exact ih (by omega) varAddr
  | @struct depth offset typeDie hdie htag hreadable hconstant _ ih =>
      obtain ⟨fuel, rfl⟩ : ∃ n, fuel = n + 1 := ⟨fuel - 1, by omega⟩
      have hdepth : depth ≤ fuel := by omega
      obtain ⟨texts, htexts⟩ :=
        exists_memberTexts varAddr hconstant fun member hmember addr =>
          ih member hmember hdepth addr
      rw [sprintValTo_struct hdie htag]
      exact ⟨_, nul_notMem_structText (hends.names offset typeDie hdie) htexts.texts_end,
        htexts.writes hframe hreadable⟩

-- The printer writes a text for each member alone, and that of the structure is made of them.
theorem struct_text_composed (hends : types.TextsEnd) (hframe : FrameKnown env var debugee)
    {structTypeDie : TypeDie} (hplain : PlainStruct types depth structTypeDie)
    (hfuel : depth ≤ fuel) (varAddr : UWORD) :
    (∃ texts, MemberTexts env var types fuel debugee varAddr structTypeDie texts) ∧
      ∀ texts, MemberTexts env var types fuel debugee varAddr structTypeDie texts →
        Writes env debugee
          (sprintStructTo env var types (sprintValTo env var types fuel) varAddr structTypeDie)
          (structText (memberEntries structTypeDie texts)) := by
  constructor
  · exact exists_memberTexts varAddr hplain.constant fun member hmember addr =>
      (hplain.plain member hmember).writes hends hframe hfuel addr
  · intro texts htexts
    exact htexts.writes hframe hplain.readable

section Example

theorem wordMember_constant (memberName : CString) (offset : WORD) (typeOffset : UWORD) :
    ConstantMember (wordMember (.ok memberName) offset typeOffset) offset :=
  ⟨⟨memberName, rfl⟩, _, _, rfl, rfl, rfl, rfl⟩

theorem structOf_readable {members : List MemberDie}
    (h : ∀ member ∈ members, member.tag = .ok .DW_TAG_member) :
    ∀ child ∈ (structOf members).children, ReadableChild child := by
  intro child hchild
  obtain ⟨member, hmember, rfl⟩ := List.mem_map.mp hchild
  exact ⟨member, _, rfl, h member hmember⟩

theorem nestedTypes_textsEnd : nestedTypes.TextsEnd where
  formatDouble _ := List.not_mem_nil
  names offset typeDie hdie := by
    cases hdie
    intro member hmember
    split_ifs at hmember
    · cases List.mem_singleton.mp hmember
      decide
    · cases hmember

theorem nestedTypes_word (depth : Nat) : PlainType nestedTypes (depth + 1) (.ok 0x40) :=
  .base rfl rfl fun _ => ⟨_, rfl⟩

theorem nestedTypes_struct (depth : Nat) : PlainType nestedTypes (depth + 2) (.ok 0x50) := by
  refine .struct rfl rfl (structOf_readable (by decide)) ?_ ?_
  · intro member hmember
    cases List.mem_singleton.mp hmember
    exact ⟨0, wordMember_constant _ _ _⟩
  · intro member hmember
    cases List.mem_singleton.mp hmember
    exact nestedTypes_word depth

-- A word and then a structure of one.
def wordBehindWord : TypeDie :=
  structOf [wordMember (.ok "a".toList) 0 0x40, wordMember (.ok "in".toList) 8 0x50]

theorem wordBehindWord_plain : PlainStruct nestedTypes 2 wordBehindWord := by
  refine ⟨structOf_readable (by decide), ?_, ?_⟩
  · intro member hmember
    rcases List.mem_pair.mp hmember with rfl | rfl
    · exact ⟨0, wordMember_constant _ _ _⟩
    · exact ⟨8, wordMember_constant _ _ _⟩
  · intro member hmember
    rcases List.mem_pair.mp hmember with rfl | rfl
    · exact nestedTypes_word 1
    · exact nestedTypes_struct 0

theorem nested_text_composed :
    (∃ texts, MemberTexts nopEnv implicitVarEnv nestedTypes 2 sevenBehind.debugee 0x3000
        wordBehindWord texts) ∧
      ∀ texts, MemberTexts nopEnv implicitVarEnv nestedTypes 2 sevenBehind.debugee 0x3000
          wordBehindWord texts →
        Writes nopEnv sevenBehind.debugee
          (sprintStructTo nopEnv implicitVarEnv nestedTypes
            (sprintValTo nopEnv implicitVarEnv nestedTypes 2) 0x3000 wordBehindWord)
          (structText (memberEntries wordBehindWord texts)) :=
  struct_text_composed nestedTypes_textsEnd ⟨by decide, by decide, fun h => absurd rfl h⟩
    wordBehindWord_plain (Nat.le_refl 2) 0x3000

-- Two characters are written already, and the last one is not used.
example : (sprintStructTo nopEnv implicitVarEnv nestedTypes
      (sprintValTo nopEnv implicitVarEnv nestedTypes 2) 0x3000 wordBehindWord
      (List.replicate 31 '#') 2 sevenBehind).1.value? =
    some ("##{[0]a: 0, [1]in: {[0]b: 7}}".toList ++ ['\x00', '#']) := by
  decide +kernel

end Example

end Plain

end VDebugger
