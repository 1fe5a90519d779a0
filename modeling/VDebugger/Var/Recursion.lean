import Mathlib.Data.Fintype.Option
import Mathlib.Order.Filter.AtTopBot.Basic
import Mathlib.Order.Filter.Finite
import VDebugger.Machine.Cycles
import VDebugger.Var.Graph

namespace VDebugger

open Machine Relation

variable {κ : Type} {env : Env κ} {var : VarEnv κ} {types : TypeEnv}

section Frame

theorem frameInfo_unknown {debugee : Proc κ} (h : ¬FrameKnown env var debugee) (locInfo : LocInfo) :
    ∃ code, frameInfo env var debugee locInfo = .error code := by
  unfold frameInfo
  by_cases hinit : env.unwInitRemote debugee < 0
  · exact ⟨1, if_pos hinit⟩
  by_cases hstep : env.unwStep debugee < 0
  · exact ⟨1, by rw [if_neg hinit, if_pos hstep]⟩
  by_cases houter : env.unwStep debugee = 0
  · exact absurd ⟨hinit, hstep, absurd houter⟩ h
  rw [if_neg hinit, if_neg hstep, if_neg houter]
  by_cases hip : (var.unwGetRegIp debugee).1 < 0
  · exact ⟨1, if_pos hip⟩
  by_cases hsp : (env.unwGetRegSp debugee).1 < 0
  · exact ⟨1, by rw [if_neg hip, if_pos hsp]⟩
  · exact absurd ⟨hinit, hstep, fun _ => ⟨hip, hsp⟩⟩ h

-- With registers that can be read, `init_loc_info` fails where libunwind does.
theorem structLocInfo_cases (var : VarEnv κ) (hread : ∀ request, env.fault request = false)
    (varAddr : UWORD) (s : Debugger κ) :
    (FrameKnown env var s.debugee ∧
        ∃ locInfo t, structLocInfo env var varAddr s = (.ok locInfo, t)) ∨
      (¬FrameKnown env var s.debugee ∧
        ∃ code t, structLocInfo env var varAddr s = (.error code, t)) := by
  have hregs := getRegsStruct_of_granted (hread s.log.length)
  have hrun : structLocInfo env var varAddr s =
      (frameInfo env var s.debugee
        { loadAddress := s.loadAddress, hInitial := 1, inital := varAddr,
          calleeRegsCurValue := s.debugee.regs }, s.note .getRegs true) := by
    unfold structLocInfo
    rw [Action.bind_of_ok (Action.fetch_apply s), initLocInfo_eq]
    exact Action.bind_of_ok hregs _
  rw [hrun]
  by_cases hframe : FrameKnown env var s.debugee
  · obtain ⟨filled, hfilled⟩ := hframe.frameInfo_eq _
    rw [hfilled]
    exact .inl ⟨hframe, filled, _, rfl⟩
  · obtain ⟨code, hcode⟩ := frameInfo_unknown hframe _
    rw [hcode]
    exact .inr ⟨hframe, code, _, rfl⟩

end Frame

section Runs

variable {debugee : Proc κ} {typeOffset : DwRes UWORD} {offset varAddr : UWORD} {typeDie : TypeDie}
  {fuel depth : Nat} {s t : Debugger κ} {text : CString}

theorem sprintVariableDieVal_struct (hdie : types.offdie offset = .ok typeDie)
    (htag : typeDie.tag = .ok .DW_TAG_structure_type) (varAddr : UWORD) :
    sprintVariableDieVal env var types (fuel + 1) (.ok offset) varAddr =
      (structLocInfo env var varAddr >>= fun locInfo => do
        let members ← sprintMembers env var types locInfo varAddr
          (sprintVariableDieVal env var types fuel) typeDie.children.length 0 typeDie.children
        pure ('{' :: members) : DebuggerM κ CString) := by
  simp only [sprintVariableDieVal, DwRes.orReturn_ok_bind, hdie, htag]
  rfl

-- The types that are not refused at once.
theorem sprintVariableDieVal_cases (types : TypeEnv) (typeOffset : DwRes UWORD) :
    (∃ offset typeDie, typeOffset = .ok offset ∧ types.offdie offset = .ok typeDie ∧
        (typeDie.tag = .ok .DW_TAG_base_type ∨
          (∃ tag, typeDie.tag = .ok tag ∧ tag.isModifier = true) ∨
          typeDie.tag = .ok .DW_TAG_structure_type)) ∨
      ∀ (env : Env κ) (var : VarEnv κ) (fuel : Nat) (varAddr : UWORD) (s : Debugger κ),
        ∃ code, sprintVariableDieVal env var types (fuel + 1) typeOffset varAddr s =
          (.error code, s) := by
  cases typeOffset with
  | noEntry => exact .inr fun env var fuel varAddr s => ⟨-1, rfl⟩
  | error => exact .inr fun env var fuel varAddr s => ⟨1, rfl⟩
  | ok offset =>
      cases hdie : types.offdie offset with
      | noEntry =>
          refine .inr fun env var fuel varAddr s => ⟨-1, ?_⟩
          rw [sprintVariableDieVal, DwRes.orReturn_ok_bind, hdie]
          rfl
      | error =>
          refine .inr fun env var fuel varAddr s => ⟨1, ?_⟩
          rw [sprintVariableDieVal, DwRes.orReturn_ok_bind, hdie]
          rfl
      | ok typeDie =>
          have hbehind (env : Env κ) (var : VarEnv κ) (fuel : Nat) (varAddr : UWORD) :=
            sprintVariableDieVal.eq_2 env var types (.ok offset) varAddr fuel
          simp only [DwRes.orReturn_ok_bind, hdie] at hbehind
          cases htag : typeDie.tag with
          | noEntry =>
              refine .inr fun env var fuel varAddr s => ⟨-1, ?_⟩
              rw [hbehind, htag]
              rfl
          | error =>
              refine .inr fun env var fuel varAddr s => ⟨1, ?_⟩
              rw [hbehind, htag]
              rfl
          | ok tag =>
              cases htag' : tag with
              | DW_TAG_base_type => exact .inl ⟨offset, typeDie, rfl, hdie, .inl (htag' ▸ htag)⟩
              | DW_TAG_structure_type =>
                  exact .inl ⟨offset, typeDie, rfl, hdie, .inr (.inr (htag' ▸ htag))⟩
              | DW_TAG_array_type | DW_TAG_class_type | DW_TAG_union_type | DW_TAG_member
              | other =>
                  refine .inr fun env var fuel varAddr s => ⟨1, ?_⟩
                  rw [hbehind, htag, htag']
                  rfl
              | DW_TAG_atomic_type | DW_TAG_const_type | DW_TAG_immutable_type | DW_TAG_packed_type
              | DW_TAG_pointer_type | DW_TAG_reference_type | DW_TAG_restrict_type
              | DW_TAG_rvalue_reference_type | DW_TAG_shared_type | DW_TAG_volatile_type
              | DW_TAG_typedef =>
                  exact .inl ⟨offset, typeDie, rfl, hdie, .inr (.inl ⟨tag, htag, htag' ▸ rfl⟩)⟩

theorem sprintVariableDieVal_keeps {rel : Debugger κ → Debugger κ → Prop}
    (h : KeptByLooking env rel) (fuel : Nat) (typeOffset : DwRes UWORD) (varAddr : UWORD) :
    (sprintVariableDieVal env var types fuel typeOffset varAddr).Keeps rel := by
  induction fuel generalizing typeOffset varAddr with
  | zero => exact h.refl
  | succ fuel ih =>
      rcases sprintVariableDieVal_cases (κ := κ) types typeOffset with
        ⟨offset, typeDie, rfl, hdie, htag | ⟨tag, htag, hmodifier⟩ | htag⟩ | hrefused
      · rw [sprintVariableDieVal_base hdie htag]
        exact h.bind (h.peekData _) fun data => orReturn_keeps h _
      · rw [sprintVariableDieVal_modifier hdie htag hmodifier]
        exact ih _ _
      · rw [sprintVariableDieVal_struct hdie htag]
        exact h.bind (structLocInfo_keeps h var varAddr) fun locInfo =>
          h.bind (sprintMembers_keeps h ih _ _ _) fun members => h.refl
      · refine h.same fun s => ?_
        obtain ⟨code, hrun⟩ := hrefused env var fuel varAddr s
        rw [hrun]

theorem sprintVariableDieVal_asks (fuel : Nat) (typeOffset : DwRes UWORD) (varAddr : UWORD) :
    (sprintVariableDieVal env var types fuel typeOffset varAddr).Keeps Asks :=
  sprintVariableDieVal_keeps (asks_kept env) fuel typeOffset varAddr

-- What is printed is of a type that is.
theorem printsWithin_of_ok (hread : ∀ request, env.fault request = false)
    (hlocations : LocationsKnown var types)
    (h : sprintVariableDieVal env var types fuel typeOffset varAddr s = (.ok text, t))
    (hs : s.debugee = debugee) :
    PrintsWithin types (FrameKnown env var debugee) fuel typeOffset := by
  induction fuel generalizing typeOffset varAddr s text t with
  | zero => exact nomatch h
  | succ fuel ih =>
      rcases sprintVariableDieVal_cases (κ := κ) types typeOffset with
        ⟨offset, typeDie, rfl, hdie, htag | ⟨tag, htag, hmodifier⟩ | htag⟩ | hrefused
      · rw [sprintVariableDieVal_base hdie htag] at h
        obtain ⟨data, u, -, hdecoded⟩ := Action.bind_eq_ok.mp h
        refine ⟨offset, typeDie, rfl, hdie, .inl ⟨htag, fun other => ?_⟩⟩
        have hsome : (decodeBase types typeDie data).value?.isSome = true := by
          rw [← orReturn_value _ u, hdecoded]
          rfl
        rw [decodeBase_isSome types typeDie data other] at hsome
        cases hother : decodeBase types typeDie other with
        | ok text => exact ⟨text, rfl⟩
        | noEntry | error =>
            rw [hother] at hsome
            cases hsome
      · rw [sprintVariableDieVal_modifier hdie htag hmodifier] at h
        exact ⟨offset, typeDie, rfl, hdie, .inr (.inl ⟨tag, htag, hmodifier, ih h hs⟩)⟩
      · rw [sprintVariableDieVal_struct hdie htag] at h
        obtain ⟨locInfo, u, hinit, hbehind⟩ := Action.bind_eq_ok.mp h
        obtain ⟨members, v, hmembers, -⟩ := Action.bind_eq_ok.mp hbehind
        have hu := (debugee_of_asks (structLocInfo_asks var varAddr) hinit).trans hs
        rcases structLocInfo_cases var hread varAddr s with
          ⟨hframe, -⟩ | ⟨-, code, w, herror⟩
        · obtain ⟨entries, cut, hprinted, -⟩ := (sprintMembers_eq_ok (Nat.le_refl _)).mp hmembers
          refine ⟨offset, typeDie, rfl, hdie, .inr (.inr ⟨htag, hs ▸ hframe, ?_⟩)⟩
          exact hprinted.loopPrints (hlocations offset typeDie hdie)
            (sprintVariableDieVal_asks fuel) (fun _ _ _ _ _ hs' hval => ih hval hs') hu
        · exact nomatch hinit.symm.trans herror
      · obtain ⟨code, hrun⟩ := hrefused env var fuel varAddr s
        exact nomatch h.symm.trans hrun

-- A type that is printed gives no error, though it may take longer.
theorem PrintsWithin.ne_error (hread : ∀ request, env.fault request = false)
    (hlocations : LocationsKnown var types)
    (h : PrintsWithin types (FrameKnown env var debugee) depth typeOffset)
    (hs : s.debugee = debugee) (fuel : Nat) (varAddr : UWORD) (code : Int) :
    (sprintVariableDieVal env var types fuel typeOffset varAddr s).1 ≠ .error code := by
  induction fuel generalizing depth typeOffset varAddr s code with
  | zero => exact fun h => nomatch h
  | succ fuel ih =>
      cases depth with
      | zero => exact h.elim
      | succ depth =>
          obtain ⟨offset, typeDie, rfl, hdie, ⟨htag, hdecoded⟩ | ⟨tag, htag, hmodifier, hrest⟩ |
            ⟨htag, hframe, hloop⟩⟩ := h
          · have hpeek := ptracePeekData_of_granted (hread s.log.length) varAddr
            obtain ⟨text, htext⟩ := hdecoded (readWord s.debugee.mem varAddr.toNat)
            rw [sprintVariableDieVal_base hdie htag]
            unfold sprintVarDieGivenBase
            rw [Action.bind_of_ok hpeek, htext]
            exact fun h => nomatch h
          · rw [sprintVariableDieVal_modifier hdie htag hmodifier]
            exact ih hrest hs varAddr code
          · rw [sprintVariableDieVal_struct hdie htag]
            rcases structLocInfo_cases var hread varAddr s with
              ⟨-, locInfo, u, hinit⟩ | ⟨hunknown, -⟩
            · have hu := (debugee_of_asks (structLocInfo_asks var varAddr) hinit).trans hs
              rw [Action.bind_of_ok hinit]
              refine Action.bind_ne_error ?_ fun members v _ h => nomatch h
              exact hloop.sprintMembers_ne_error (hlocations offset typeDie hdie)
                (sprintVariableDieVal_asks fuel)
                (fun _ hprinted addr _ hs' code => ih hprinted hs' addr code) hu _ _ code
            · exact absurd (hs.symm ▸ hframe) hunknown

-- While a type that it leads to is printed, so is the type.
theorem Leads.pending (hread : ∀ request, env.fault request = false)
    (hlocations : LocationsKnown var types) {target : DwRes UWORD}
    (h : Leads types (FrameKnown env var debugee) typeOffset target)
    (htarget : ∀ varAddr (s : Debugger κ), s.debugee = debugee →
      (sprintVariableDieVal env var types fuel target varAddr s).1 = .pending)
    (hs : s.debugee = debugee) (varAddr : UWORD) :
    (sprintVariableDieVal env var types (fuel + 1) typeOffset varAddr s).1 = .pending := by
  cases h with
  | modifier hdie htag hmodifier =>
      rw [sprintVariableDieVal_modifier hdie htag hmodifier]
      exact htarget varAddr s hs
  | member hdie htag hframe hcomes =>
      rw [sprintVariableDieVal_struct hdie htag]
      rcases structLocInfo_cases var hread varAddr s with
        ⟨-, locInfo, u, hinit⟩ | ⟨hunknown, -⟩
      · have hu := (debugee_of_asks (structLocInfo_asks var varAddr) hinit).trans hs
        rw [Action.bind_of_ok hinit]
        refine Action.bind_pending ?_ _
        refine hcomes.sprintMembers_pending (hlocations _ _ hdie) (sprintVariableDieVal_asks fuel)
          (fun _ hprinted addr _ hs' code => ?_) htarget hu (Nat.le_refl _) 0
        obtain ⟨depth, hwithin⟩ := hprinted
        exact hwithin.ne_error hread hlocations hs' fuel addr code
      · exact absurd (hs.symm ▸ hframe) hunknown

-- From every state of the debugee, once so many types may be visited.
def EndsFrom (env : Env κ) (var : VarEnv κ) (types : TypeEnv) (debugee : Proc κ)
    (typeOffset : DwRes UWORD) (fuel : Nat) : Prop :=
  ∀ (varAddr : UWORD) (s : Debugger κ), s.debugee = debugee →
    (sprintVariableDieVal env var types fuel typeOffset varAddr s).1 ≠ .pending

-- Where every type that it leads to is printed or not in the end, so is the type.
theorem endsFrom_of_leads (hread : ∀ request, env.fault request = false)
    (hlocations : LocationsKnown var types)
    (h : ∀ target, Leads types (FrameKnown env var debugee) typeOffset target →
      ∀ᶠ fuel in Filter.atTop, EndsFrom env var types debugee target fuel) :
    ∀ᶠ fuel in Filter.atTop, EndsFrom env var types debugee typeOffset fuel := by
  rw [← Filter.map_add_atTop_eq_nat 1, Filter.eventually_map]
  rcases sprintVariableDieVal_cases (κ := κ) types typeOffset with
    ⟨offset, typeDie, rfl, hdie, htag | ⟨tag, htag, hmodifier⟩ | htag⟩ | hrefused
  · refine Filter.Eventually.of_forall fun fuel varAddr s hs => ?_
    rw [sprintVariableDieVal_base hdie htag]
    unfold sprintVarDieGivenBase
    rw [Action.bind_of_ok (ptracePeekData_of_granted (hread s.log.length) varAddr)]
    cases decodeBase types typeDie (readWord s.debugee.mem varAddr.toNat) <;>
      exact fun h => nomatch h
  · filter_upwards [h _ (.modifier hdie htag hmodifier)] with fuel hfuel varAddr s hs
    rw [sprintVariableDieVal_modifier hdie htag hmodifier]
    exact hfuel varAddr s hs
  · -- The structure has finitely many members, and one bound on the types is enough for all.
    have hmembers : ∀ᶠ fuel in Filter.atTop,
        ∀ member ∈ { other | other ∈ dataMembers typeDie.children }, FrameKnown env var debugee →
          LoopComesTo types (Printable types (FrameKnown env var debugee)) typeDie.children member →
            EndsFrom env var types debugee member.typeOffset fuel := by
      refine (Filter.eventually_all_finite (List.finite_toSet _)).mpr fun member _ => ?_
      by_cases hcomes : FrameKnown env var debugee ∧
          LoopComesTo types (Printable types (FrameKnown env var debugee)) typeDie.children member
      · filter_upwards [h _ (.member hdie htag hcomes.1 hcomes.2)] with fuel hfuel _ _
        exact hfuel
      · exact Filter.Eventually.of_forall fun fuel hframe hother => absurd ⟨hframe, hother⟩ hcomes
    filter_upwards [hmembers] with fuel hfuel varAddr s hs
    rw [sprintVariableDieVal_struct hdie htag]
    rcases structLocInfo_cases var hread varAddr s with
      ⟨hframe, locInfo, u, hinit⟩ | ⟨-, code, u, hinit⟩
    · have hu := (debugee_of_asks (structLocInfo_asks var varAddr) hinit).trans hs
      rw [Action.bind_of_ok hinit]
      refine Action.bind_ne_pending ?_ fun members v _ h => nomatch h
      exact sprintMembers_ends (hlocations offset typeDie hdie) (sprintVariableDieVal_asks fuel)
        (fun _ _ _ _ _ hs' hval => ⟨fuel, printsWithin_of_ok hread hlocations hval hs'⟩)
        (fun other hcomes => hfuel other hcomes.mem (hs ▸ hframe) hcomes) hu _ _
    · rw [Action.bind_of_error hinit]
      exact fun h => nomatch h
  · refine Filter.Eventually.of_forall fun fuel varAddr s hs => ?_
    obtain ⟨code, hrun⟩ := hrefused env var fuel varAddr s
    rw [hrun]
    exact fun h => nomatch h

-- On the way around a cycle, no number of types is enough.
theorem pending_of_reachesCycle (hread : ∀ request, env.fault request = false)
    (hlocations : LocationsKnown var types)
    (h : ReachesCycle (Leads types (FrameKnown env var debugee)) typeOffset)
    (hs : s.debugee = debugee) (fuel : Nat) (varAddr : UWORD) :
    (sprintVariableDieVal env var types fuel typeOffset varAddr s).1 = .pending := by
  induction fuel generalizing typeOffset s varAddr with
  | zero => rfl
  | succ fuel ih =>
      obtain ⟨target, hleads, hcycle⟩ := h.next
      exact hleads.pending hread hlocations (fun addr t ht => ih hcycle ht addr) hs varAddr

instance : Finite UWORD := Finite.of_injective BitVec.toFin fun _ _ => BitVec.eq_of_toFin_eq

-- There are finitely many offsets.
instance : Finite (DwRes UWORD) :=
  Finite.of_surjective (fun offset : Option (Option UWORD) =>
    match offset with
    | some (some offset) => DwRes.ok offset
    | some none => .noEntry
    | none => .error) fun typeOffset => by
      cases typeOffset with
      | ok offset => exact ⟨some (some offset), rfl⟩
      | noEntry => exact ⟨some none, rfl⟩
      | error => exact ⟨none, rfl⟩

-- The recursion ends: some number of types is enough.
def PrintingEnds (env : Env κ) (var : VarEnv κ) (types : TypeEnv) (typeOffset : DwRes UWORD)
    (varAddr : UWORD) (s : Debugger κ) : Prop :=
  ∃ depth, ∀ fuel, depth ≤ fuel →
    (sprintVariableDieVal env var types fuel typeOffset varAddr s).1 ≠ .pending

-- With memory that can be read, it ends where no cycle is reached, be it one through a pointer.
theorem printing_ends_iff (hread : ∀ request, env.fault request = false)
    (hlocations : LocationsKnown var types) (typeOffset : DwRes UWORD) (varAddr : UWORD)
    (s : Debugger κ) :
    PrintingEnds env var types typeOffset varAddr s ↔
      ¬ReachesCycle (Leads types (FrameKnown env var s.debugee)) typeOffset := by
  constructor
  · rintro ⟨depth, hends⟩ hcycle
    exact hends depth (Nat.le_refl _)
      (pending_of_reachesCycle hread hlocations hcycle rfl depth varAddr)
  · intro hacyclic
    have hends : ∀ᶠ fuel in Filter.atTop, EndsFrom env var types s.debugee typeOffset fuel := by
      induction acc_of_not_reachesCycle hacyclic with
      | intro typeOffset _ ih =>
          exact endsFrom_of_leads hread hlocations fun target hleads =>
            ih target hleads fun hcycle => hacyclic (hcycle.head hleads)
    obtain ⟨depth, hdepth⟩ := Filter.eventually_atTop.mp hends
    exact ⟨depth, fun fuel hfuel => hdepth fuel hfuel varAddr s rfl⟩

end Runs

section Pointers

variable {frame : Prop} {typeOffset target : DwRes UWORD}

-- A value of the first type has one of the second in it. A pointer has not.
inductive HoldsValue (types : TypeEnv) : DwRes UWORD → DwRes UWORD → Prop
  | target {offset : UWORD} {typeDie : TypeDie} {tag : TypeTag}
      (hdie : types.offdie offset = .ok typeDie) (htag : typeDie.tag = .ok tag)
      (hdirect : tag.isPointer = false) :
      HoldsValue types (.ok offset) typeDie.typeOffset
  | member {offset : UWORD} {typeDie : TypeDie} {member : MemberDie}
      (hdie : types.offdie offset = .ok typeDie) (hmember : member ∈ dataMembers typeDie.children) :
      HoldsValue types (.ok offset) member.typeOffset

-- As in every valid program.
def CyclesPassPointers (types : TypeEnv) : Prop :=
  ∀ typeOffset, ¬TransGen (HoldsValue types) typeOffset typeOffset

theorem Leads.holdsValue (h : Leads types frame typeOffset target)
    (hdirect : ∀ offset typeDie tag, typeOffset = .ok offset → types.offdie offset = .ok typeDie →
      typeDie.tag = .ok tag → tag.isPointer = false) :
    HoldsValue types typeOffset target := by
  cases h with
  | modifier hdie htag _ => exact .target hdie htag (hdirect _ _ _ rfl hdie htag)
  | member hdie _ _ hcomes => exact .member hdie hcomes.mem

-- What goes on without an end comes to a pointer.
theorem comes_to_pointer (hcycles : CyclesPassPointers types)
    (h : ReachesCycle (Leads types frame) typeOffset) :
    ∃ offset typeDie tag, ReflTransGen (Leads types frame) typeOffset (.ok offset) ∧
      types.offdie offset = .ok typeDie ∧ typeDie.tag = .ok tag ∧ tag.isPointer = true := by
  by_contra hnone
  obtain ⟨start, hreach, hcycle⟩ := h
  have hstep {a b : DwRes UWORD} (ha : ReflTransGen (Leads types frame) typeOffset a)
      (hab : Leads types frame a b) : HoldsValue types a b := by
    refine hab.holdsValue fun offset typeDie tag hoffset hdie htag => ?_
    rw [← Bool.not_eq_true]
    exact fun hpointer => hnone ⟨offset, typeDie, tag, hoffset ▸ ha, hdie, htag, hpointer⟩
  have hholds {b : DwRes UWORD} (hway : TransGen (Leads types frame) start b) :
      TransGen (HoldsValue types) start b := by
    induction hway with
    | single hab => exact .single (hstep hreach hab)
    | tail hbefore hab ih => exact ih.tail (hstep (hreach.trans hbefore.to_reflTransGen) hab)
  exact hcycles start (hholds hcycle)

end Pointers

section Examples

theorem wordMember_known (memberName : DwRes CString) (offset : WORD) (typeOffset : UWORD) :
    LocationKnown var types (wordMember memberName offset typeOffset) :=
  locationKnown_of_offset rfl rfl

-- `struct node { long value; struct node *next; }`
def valueMember : MemberDie := wordMember (.ok "value".toList) 0 0x40

def nextMember : MemberDie := wordMember (.ok "next".toList) 8 0x60

def node : TypeDie := structOf [valueMember, nextMember]

def pointerToNode : TypeDie where
  tag := .ok .DW_TAG_pointer_type
  typeOffset := .ok 0x50
  encoding := .noEntry
  bytesize := .ok 8
  children := []

def nodeTypes : TypeEnv where
  typeOffset _ := .ok 0x50
  offdie offset :=
    .ok (if offset = 0x50 then node else if offset = 0x60 then pointerToNode else unsignedType 8)
  formatDouble _ := []
  undefLocation _ := ⟨.noEntry, .noEntry⟩
  fuel := 8

theorem nestedTypes_known : LocationsKnown implicitVarEnv nestedTypes := by
  intro offset typeDie hdie
  cases hdie
  intro member hmember
  split_ifs at hmember
  · cases List.mem_singleton.mp hmember
    exact wordMember_known _ _ _
  · cases hmember

theorem nodeTypes_known : LocationsKnown implicitVarEnv nodeTypes := by
  intro offset typeDie hdie
  cases hdie
  intro member hmember
  split_ifs at hmember
  · rcases List.mem_pair.mp hmember with rfl | rfl <;> exact wordMember_known _ _ _
  · cases hmember
  · cases hmember

-- Of the type at 0x50 only, values have others in them.
def structRank : DwRes UWORD → ℕ
  | .ok offset => if offset = 0x50 then 2 else 1
  | .noEntry | .error => 0

theorem cyclesPassPointers_of_one
    (htarget : ∀ offset typeDie tag, types.offdie offset = .ok typeDie → typeDie.tag = .ok tag →
      tag.isPointer = false → typeDie.typeOffset = .noEntry)
    (hmember : ∀ offset typeDie, types.offdie offset = .ok typeDie →
      ∀ member ∈ dataMembers typeDie.children,
        offset = 0x50 ∧ ∃ other, other ≠ 0x50 ∧ member.typeOffset = .ok other) :
    CyclesPassPointers types := by
  refine not_transGen_of_rank structRank fun typeOffset target h => ?_
  cases h with
  | target hdie htag hdirect =>
      rw [htarget _ _ _ hdie htag hdirect]
      unfold structRank
      dsimp only
      split_ifs <;> omega
  | member hdie hchild =>
      obtain ⟨rfl, other, hother, htype⟩ := hmember _ _ hdie _ hchild
      rw [htype]
      unfold structRank
      dsimp only
      rw [if_neg hother, if_pos rfl]
      omega

theorem nestedTypes_cycles : CyclesPassPointers nestedTypes := by
  refine cyclesPassPointers_of_one (fun offset typeDie tag hdie htag hdirect => ?_)
    fun offset typeDie hdie member hmember => ?_
  · cases hdie
    split_ifs <;> rfl
  · cases hdie
    split_ifs at hmember with hstruct
    · cases List.mem_singleton.mp hmember
      exact ⟨hstruct, 0x40, by decide, rfl⟩
    · cases hmember

theorem nodeTypes_cycles : CyclesPassPointers nodeTypes := by
  refine cyclesPassPointers_of_one (fun offset typeDie tag hdie htag hdirect => ?_)
    fun offset typeDie hdie member hmember => ?_
  · cases hdie
    split_ifs at htag ⊢
    · rfl
    · cases htag
      cases hdirect
    · rfl
  · cases hdie
    split_ifs at hmember with hstruct
    · rcases List.mem_pair.mp hmember with rfl | rfl
      · exact ⟨hstruct, 0x40, by decide, rfl⟩
      · exact ⟨hstruct, 0x60, by decide, rfl⟩
    · cases hmember
    · cases hmember

-- A structure without a pointer.
theorem nested_printing_ends :
    PrintingEnds nopEnv implicitVarEnv nestedTypes (.ok 0x50) 0x3000 sevenBehind := by
  refine (printing_ends_iff (fun _ => rfl) nestedTypes_known _ _ _).mpr fun hcycle => ?_
  obtain ⟨offset, typeDie, tag, -, hdie, htag, hpointer⟩ :=
    comes_to_pointer nestedTypes_cycles hcycle
  cases hdie
  split_ifs at htag <;> cases htag <;> cases hpointer

theorem node_frame : FrameKnown nopEnv implicitVarEnv sevenBehind.debugee :=
  ⟨by decide, by decide, fun h => absurd rfl h⟩

-- The word is printed, and then the pointer is printed like a node.
theorem node_reachesCycle {frame : Prop} (h : frame) :
    ReachesCycle (Leads nodeTypes frame) (.ok 0x50) := by
  have hword : Printable nodeTypes frame (.ok 0x40) :=
    ⟨1, 0x40, unsignedType 8, rfl, rfl, .inl ⟨rfl, fun _ => ⟨_, rfl⟩⟩⟩
  have hvalue : getDataMembers node.children = .ok (valueMember, [.ok nextMember]) := rfl
  have hlast : getDataMembers [.ok nextMember] = .ok (nextMember, []) := rfl
  have hcomes : LoopComesTo nodeTypes (Printable nodeTypes frame) node.children nextMember :=
    .later hvalue (by decide) rfl hword (.here hlast (by decide) rfl)
  have hnext : Leads nodeTypes frame (.ok 0x50) (.ok 0x60) := .member rfl rfl h hcomes
  have hpointer : nodeTypes.offdie 0x60 = .ok pointerToNode := rfl
  have hback : Leads nodeTypes frame (.ok 0x60) (.ok 0x50) := .modifier hpointer rfl rfl
  exact ⟨.ok 0x50, .refl, .head hnext (.single hback)⟩

theorem list_node_unending : CyclesPassPointers nodeTypes ∧
    (∀ request, nopEnv.fault request = false) ∧
      ¬PrintingEnds nopEnv implicitVarEnv nodeTypes (.ok 0x50) 0x3000 sevenBehind := by
  refine ⟨nodeTypes_cycles, fun _ => rfl, fun ⟨depth, hends⟩ => hends depth (Nat.le_refl _) ?_⟩
  exact pending_of_reachesCycle (fun _ => rfl) nodeTypes_known (node_reachesCycle node_frame) rfl
    depth 0x3000

end Examples

end VDebugger
