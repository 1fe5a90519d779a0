import VDebugger.Var.Struct

namespace VDebugger

open Machine

variable {κ α : Type} {env : Env κ} {var : VarEnv κ} {types : TypeEnv}

section Extent

-- What is needed to print a value: the characters that are written up to where the printer
-- returns, how it returns, and the state then.
structure Extent (κ : Type) where
  chars : Nat
  outcome : Outcome Unit
  after : Debugger κ

-- Behind so many characters.
def Extent.behind (extent : Extent κ) (chars : Nat) : Extent κ :=
  { extent with chars := chars + extent.chars }

@[simp] theorem Extent.behind_chars (extent : Extent κ) (chars : Nat) :
    (extent.behind chars).chars = chars + extent.chars := rfl

-- With another one behind it, where it comes to its end.
def Extent.andThen (extent : Extent κ) (next : Debugger κ → Extent κ) : Extent κ :=
  match extent.outcome with
  | .ok () => (next extent.after).behind extent.chars
  | .error _ | .pending => extent

-- Behind a call that writes nothing.
def extentAfter (x : DebuggerM κ α) (next : α → Debugger κ → Extent κ) (s : Debugger κ) :
    Extent κ :=
  match x s with
  | (.ok a, t) => next a t
  | (.error code, t) => ⟨0, .error code, t⟩
  | (.pending, t) => ⟨0, .pending, t⟩

-- A word takes the characters of its format.
def baseExtent (env : Env κ) (types : TypeEnv) (varAddr : UWORD) (typeDie : TypeDie) :
    Debugger κ → Extent κ :=
  extentAfter (ptracePeekData env varAddr) fun data =>
    extentAfter (decodeBase types typeDie data).orReturn fun text t => ⟨text.length, .ok (), t⟩

-- The separator
def separatorLength (i : Nat) : Nat := if i > 0 then 2 else 0

-- The separator, the number in its brackets, the name, and the colon and the blank.
def labelLength (i : Nat) (member : MemberDie) : Nat :=
  separatorLength i + (Nat.toDigits 10 i).length + member.shownName.length + 4

-- The members from number `i` on, and the brace.
def membersExtent (env : Env κ) (var : VarEnv κ) (types : TypeEnv) (locInfo : LocInfo)
    (varAddr : UWORD) (extentOf : DwRes UWORD → UWORD → Debugger κ → Extent κ) :
    Nat → Nat → List (DwRes MemberDie) → Debugger κ → Extent κ
  | 0, _, _, s => ⟨1, .ok (), s⟩
  | passes + 1, i, children, s =>
      match getDataMembers children with
      | .noEntry | .error => ⟨1, .ok (), s⟩
      | .ok (member, rest) =>
          if member.diename = .error then ⟨separatorLength i, .error 1, s⟩
          else
            (extentAfter (memberAddr env var types locInfo varAddr member) (fun addr t =>
              match addr with
              | none => ⟨0, .ok (), t⟩
              | some addr => (extentOf member.typeOffset addr t).andThen
                  (membersExtent env var types locInfo varAddr extentOf passes (i + 1) rest))
              s).behind (labelLength i member)

def structExtent (env : Env κ) (var : VarEnv κ) (types : TypeEnv)
    (extentOf : DwRes UWORD → UWORD → Debugger κ → Extent κ) (varAddr : UWORD)
    (structTypeDie : TypeDie) : Debugger κ → Extent κ :=
  extentAfter (structLocInfo env var varAddr) fun locInfo t =>
    (membersExtent env var types locInfo varAddr extentOf structTypeDie.children.length 0
      structTypeDie.children t).behind 1

-- A value of this type at this address.
def valExtent (env : Env κ) (var : VarEnv κ) (types : TypeEnv) :
    Nat → DwRes UWORD → UWORD → Debugger κ → Extent κ
  | 0, _, _ => fun s => ⟨0, .pending, s⟩
  | fuel + 1, typeOffset, varAddr =>
      extentAfter typeOffset.orReturn fun offset =>
        extentAfter (types.offdie offset).orReturn fun typeDie =>
          extentAfter typeDie.tag.orReturn fun typeTag =>
            if typeTag = .DW_TAG_base_type then baseExtent env types varAddr typeDie
            else if typeTag = .DW_TAG_structure_type then
              structExtent env var types (valExtent env var types fuel) varAddr typeDie
            else if typeTag.isModifier then
              valExtent env var types fuel typeDie.typeOffset varAddr
            else fun s => ⟨0, .error 1, s⟩

end Extent

section Runs

variable {extent : Extent κ} {printOutput label : CString} {start curOffset : Nat}
  {s : Debugger κ} {run : Outcome CString × Debugger κ}

-- A run into a buffer that does what the extent says, if there is room.
inductive RunsAs (extent : Extent κ) (printOutput : CString) (start : Nat) :
    Outcome CString × Debugger κ → Prop
  | ok {text : CString} (houtcome : extent.outcome = .ok ()) (hchars : text.length = extent.chars)
      (hends : '\x00' ∉ text) (hroom : start + extent.chars < printOutput.length) :
      RunsAs extent printOutput start (.ok (writeText '\x00' printOutput start text), extent.after)
  | error {code : Int} (houtcome : extent.outcome = .error code)
      (hroom : start + extent.chars < printOutput.length) :
      RunsAs extent printOutput start (.error code, extent.after)
  | waits {t : Debugger κ} (houtcome : extent.outcome = .pending) :
      RunsAs extent printOutput start (.pending, t)
  | overflows {t : Debugger κ} (hroom : ¬start + extent.chars < printOutput.length) :
      RunsAs extent printOutput start (.pending, t)

theorem RunsAs.pending_iff (h : RunsAs extent printOutput start run) :
    run.1 = .pending ↔
      extent.outcome = .pending ∨ ¬start + extent.chars < printOutput.length := by
  cases h with
  | ok houtcome _ _ hroom =>
      rw [houtcome]
      exact iff_of_false (fun h => nomatch h) fun h => h.elim (fun h => nomatch h) (absurd hroom)
  | error houtcome hroom =>
      rw [houtcome]
      exact iff_of_false (fun h => nomatch h) fun h => h.elim (fun h => nomatch h) (absurd hroom)
  | waits houtcome => exact iff_of_true rfl (.inl houtcome)
  | overflows hroom => exact iff_of_true rfl (.inr hroom)

-- A call that writes nothing leaves the room as it is.
theorem runsAs_after {x : DebuggerM κ α} {f : α → DebuggerM κ CString}
    {next : α → Debugger κ → Extent κ} (hstart : start < printOutput.length)
    (h : ∀ a t, x s = (.ok a, t) → RunsAs (next a t) printOutput start (f a t)) :
    RunsAs (extentAfter x next s) printOutput start ((x >>= f) s) := by
  unfold extentAfter
  rcases hx : x s with ⟨a | code | _, t⟩
  · rw [Action.bind_of_ok hx]
    exact h a t hx
  · rw [Action.bind_of_error hx]
    exact .error rfl hstart
  · rw [Action.bind_of_pending hx]
    exact .waits rfl

-- What is written behind a text.
theorem RunsAs.behind (hlabel : start + label.length < printOutput.length) (hends : '\x00' ∉ label)
    (h : RunsAs extent (writeText '\x00' printOutput start label) (start + label.length) run) :
    RunsAs (extent.behind label.length) printOutput start run := by
  have hlength : (writeText '\x00' printOutput start label).length = printOutput.length :=
    length_writeText hlabel
  have hsum : start + (label.length + extent.chars) = start + label.length + extent.chars :=
    (Nat.add_assoc _ _ _).symm
  cases h with
  | ok houtcome hchars hends' hroom =>
      rw [hlength] at hroom
      rw [← hchars] at hroom hsum
      rw [writeText_append hroom]
      refine .ok houtcome ?_ ?_ ?_
      · rw [List.length_append, hchars, Extent.behind_chars]
      · rw [List.mem_append]
        exact fun h => h.elim hends hends'
      · rw [Extent.behind_chars, ← hchars, hsum]
        exact hroom
  | error houtcome hroom =>
      rw [hlength, ← hsum] at hroom
      exact .error houtcome hroom
  | waits houtcome => exact .waits houtcome
  | overflows hroom =>
      rw [hlength, ← hsum] at hroom
      exact .overflows hroom

-- Behind a text, nothing more is written.
theorem RunsAs.done (hlabel : start + label.length < printOutput.length) (s : Debugger κ) :
    RunsAs ⟨0, .ok (), s⟩ (writeText '\x00' printOutput start label) (start + label.length)
      (.ok (writeText '\x00' printOutput start label), s) := by
  have hroom : start + label.length + ([] : CString).length < printOutput.length := hlabel
  have hsame : writeText '\x00' (writeText '\x00' printOutput start label)
      (start + label.length) [] = writeText '\x00' printOutput start (label ++ []) :=
    writeText_append hroom
  rw [List.append_nil] at hsame
  have hlength : (writeText '\x00' printOutput start label).length = printOutput.length :=
    length_writeText hlabel
  conv =>
    rhs
    rw [← hsame]
  exact .ok rfl rfl List.not_mem_nil (hlength.symm ▸ hlabel)

-- `sprintf` and what is written behind it.
theorem runsAs_sprintf (extent : Extent κ) (start curOffset : Nat)
    {f : CString × Nat → DebuggerM κ CString} (hends : '\x00' ∉ label)
    (h : start + curOffset + label.length < printOutput.length →
      RunsAs extent (writeText '\x00' printOutput (start + curOffset) label)
        (start + curOffset + label.length)
        (f (writeText '\x00' printOutput (start + curOffset) label, curOffset + label.length) s)) :
    RunsAs (extent.behind label.length) printOutput (start + curOffset)
      ((sprintf start printOutput curOffset label >>= f) s) := by
  by_cases hlabel : start + curOffset + label.length < printOutput.length
  · rw [Action.bind_of_ok (sprintf_eq_ok.mpr ⟨hlabel, rfl, rfl⟩)]
    exact (h hlabel).behind hlabel hends
  · rw [Action.bind_of_pending (sprintf_of_not_fits hlabel s)]
    refine .overflows fun hroom => hlabel ?_
    rw [Extent.behind_chars] at hroom
    omega

-- A value and what is written behind it.
theorem RunsAs.andThen {x : DebuggerM κ CString} {f : CString → DebuggerM κ CString}
    {next : Debugger κ → Extent κ} (h : RunsAs extent printOutput start (x s))
    (hnext : ∀ val t, strlen (writeText '\x00' printOutput start val) start = val.length →
      start + val.length < (writeText '\x00' printOutput start val).length →
        RunsAs (next t) (writeText '\x00' printOutput start val) (start + val.length)
          (f (writeText '\x00' printOutput start val) t)) :
    RunsAs (extent.andThen next) printOutput start ((x >>= f) s) := by
  unfold Extent.andThen
  generalize hrun : x s = run at h
  cases h with
  | ok houtcome hchars hends hroom =>
      rw [← hchars] at hroom
      rw [houtcome, Action.bind_of_ok hrun, ← hchars]
      refine (hnext _ _ ?_ ?_).behind hroom hends
      · rw [strlen, textAt_writeText hroom hends]
      · rwa [length_writeText hroom]
  | error houtcome hroom =>
      rw [houtcome, Action.bind_of_error hrun]
      exact .error houtcome hroom
  | waits houtcome =>
      rw [houtcome, Action.bind_of_pending hrun]
      exact .waits houtcome
  | overflows hroom =>
      rw [Action.bind_of_pending hrun]
      refine .overflows fun hroom' => hroom ?_
      cases houtcome : extent.outcome with
      | ok _ =>
          rw [houtcome] at hroom'
          dsimp only [Extent.behind_chars] at hroom'
          omega
      | error code =>
          rw [houtcome] at hroom'
          exact hroom'
      | pending =>
          rw [houtcome] at hroom'
          exact hroom'

end Runs

section Printer

variable {extentOf : DwRes UWORD → UWORD → Debugger κ → Extent κ}
  {sprintTo : DwRes UWORD → UWORD → CString → Nat → DebuggerM κ CString} {locInfo : LocInfo}
  {varAddr : UWORD} {printOutput : CString} {start curOffset : Nat} {s : Debugger κ}

theorem memberLabel_length (i : Nat) (member : MemberDie) :
    (memberLabel i member.shownName).length = labelLength i member := by
  have hcolon : (": ".toList).length = 2 := rfl
  have hcomma : (", ".toList).length = 2 := rfl
  unfold memberLabel labelLength separatorLength
  split_ifs
  · simp only [List.length_append, List.length_cons, hcolon, hcomma]
    omega
  · simp only [List.length_append, List.length_cons, List.length_nil, hcolon]
    omega

-- Of a member whose name cannot be read, the separator is written.
theorem runsAs_unread {member : MemberDie} {i : Nat} (hname : member.diename = .error)
    (hstart : start + curOffset < printOutput.length)
    (f : CString × Nat → DebuggerM κ CString) :
    RunsAs ⟨separatorLength i, .error 1, s⟩ printOutput (start + curOffset)
      ((sprintLabelTo start i member printOutput curOffset >>= f) s) := by
  unfold separatorLength
  simp only [sprintLabelTo, hname]
  by_cases hfirst : i > 0
  · rw [if_pos hfirst, if_pos hfirst, Action.bind_assoc]
    have hcomma : '\x00' ∉ ", ".toList := by decide
    refine runsAs_sprintf ⟨0, .error 1, s⟩ start curOffset hcomma fun hfits => ?_
    exact .error rfl ((length_writeText hfits).symm ▸ hfits)
  · rw [if_neg hfirst, if_neg hfirst]
    exact .error rfl hstart

-- The loop writes what its members need.
theorem sprintMembersTo_runsAs
    (hval : ∀ typeOffset addr printOutput start s, start < printOutput.length →
      RunsAs (extentOf typeOffset addr s) printOutput start
        (sprintTo typeOffset addr printOutput start s))
    {children : List (DwRes MemberDie)} (hnames : NamesEnd children)
    (hstart : start + curOffset < printOutput.length) (passes i : Nat) :
    RunsAs (membersExtent env var types locInfo varAddr extentOf passes i children s) printOutput
      (start + curOffset)
      (sprintMembersTo env var types locInfo varAddr sprintTo start passes i children printOutput
        curOffset s) := by
  have hbrace {printOutput : CString} {curOffset : Nat} {s : Debugger κ} :
      RunsAs ⟨1, .ok (), s⟩ printOutput (start + curOffset)
        ((sprintf start printOutput curOffset ['}'] >>= fun written =>
          (pure written.1 : DebuggerM κ CString)) s) := by
    have hclosed : '\x00' ∉ ['}'] := by decide
    exact runsAs_sprintf ⟨0, .ok (), s⟩ start curOffset hclosed fun hfits => RunsAs.done hfits s
  induction passes generalizing i children printOutput curOffset s with
  | zero => exact hbrace
  | succ passes ih =>
      unfold membersExtent
      cases hget : getDataMembers children with
      | noEntry | error =>
          rw [sprintMembersTo, hget]
          exact hbrace
      | ok next =>
          obtain ⟨member, rest⟩ := next
          obtain ⟨hends, hbehind⟩ := hnames.cons hget
          rw [sprintMembersTo_pass hget]
          dsimp only
          by_cases hname : member.diename = .error
          · rw [if_pos hname]
            exact runsAs_unread hname hstart _
          rw [if_neg hname, sprintLabelTo_eq i hname, ← memberLabel_length]
          refine runsAs_sprintf _ start curOffset (nul_notMem_memberLabel hends) fun hlabel => ?_
          refine runsAs_after ((length_writeText hlabel).symm ▸ hlabel) fun addr t haddr => ?_
          cases addr with
          | none => exact RunsAs.done hlabel t
          | some addr =>
              have hroom : start + (curOffset + (memberLabel i member.shownName).length) <
                  (writeText '\x00' printOutput (start + curOffset)
                    (memberLabel i member.shownName)).length := by
                rw [length_writeText hlabel, ← Nat.add_assoc]
                exact hlabel
              rw [Nat.add_assoc]
              refine (hval _ _ _ _ _ hroom).andThen fun val u hend hfits => ?_
              rw [Nat.add_assoc] at hfits
              dsimp only
              rw [hend, Nat.add_assoc]
              exact ih hbehind hfits (i + 1)

theorem sprintStructTo_runsAs
    (hval : ∀ typeOffset addr printOutput start s, start < printOutput.length →
      RunsAs (extentOf typeOffset addr s) printOutput start
        (sprintTo typeOffset addr printOutput start s))
    {structTypeDie : TypeDie} (hnames : NamesEnd structTypeDie.children)
    (hstart : start < printOutput.length) :
    RunsAs (structExtent env var types extentOf varAddr structTypeDie s) printOutput start
      (sprintStructTo env var types sprintTo varAddr structTypeDie printOutput start s) := by
  have hopen : '\x00' ∉ ['{'] := by decide
  refine runsAs_after hstart fun locInfo t _ => ?_
  refine runsAs_sprintf _ start 0 hopen fun hfits => ?_
  exact sprintMembersTo_runsAs hval hnames ((length_writeText hfits).symm ▸ hfits) _ 0

theorem sprintBaseTo_runsAs (hends : types.TextsEnd) (typeDie : TypeDie)
    (hstart : start < printOutput.length) :
    RunsAs (baseExtent env types varAddr typeDie s) printOutput start
      (sprintBaseTo env types varAddr typeDie printOutput start s) := by
  refine runsAs_after hstart fun data t _ => runsAs_after hstart fun text u htext => ?_
  have hnul : '\x00' ∉ text := nul_notMem_decodeBase hends.formatDouble (orReturn_eq_ok.mp htext).1
  exact runsAs_sprintf ⟨0, .ok (), u⟩ start 0 hnul fun hfits => RunsAs.done hfits u

-- The printer writes what the value needs, for the types of all variables.
theorem sprintValTo_runsAs (env : Env κ) (var : VarEnv κ) (hends : types.TextsEnd) (fuel : Nat)
    (typeOffset : DwRes UWORD) (varAddr : UWORD) (printOutput : CString) (start : Nat)
    (s : Debugger κ)
    (hstart : start < printOutput.length) :
    RunsAs (valExtent env var types fuel typeOffset varAddr s) printOutput start
      (sprintValTo env var types fuel typeOffset varAddr printOutput start s) := by
  induction fuel generalizing typeOffset varAddr printOutput start s with
  | zero => exact .waits rfl
  | succ fuel ih =>
      refine runsAs_after hstart fun offset t _ => runsAs_after hstart fun typeDie u hdie =>
        runsAs_after hstart fun typeTag v _ => ?_
      have hnames : NamesEnd typeDie.children :=
        hends.names offset typeDie (orReturn_eq_ok.mp hdie).1
      cases typeTag with
      | DW_TAG_base_type => exact sprintBaseTo_runsAs hends typeDie hstart
      | DW_TAG_structure_type => exact sprintStructTo_runsAs ih hnames hstart
      | DW_TAG_array_type | DW_TAG_class_type | DW_TAG_union_type | DW_TAG_member =>
          exact .error rfl hstart
      | other tag => exact .error rfl hstart
      | DW_TAG_atomic_type | DW_TAG_const_type | DW_TAG_immutable_type | DW_TAG_packed_type
      | DW_TAG_pointer_type | DW_TAG_reference_type | DW_TAG_restrict_type
      | DW_TAG_rvalue_reference_type | DW_TAG_shared_type | DW_TAG_volatile_type
      | DW_TAG_typedef => exact ih typeDie.typeOffset varAddr printOutput start v hstart

end Printer

section Fits

variable {fuel : Nat} {typeOffset : DwRes UWORD} {varAddr : UWORD} {s : Debugger κ}

-- Where there is a text, the characters are those of the text.
theorem valExtent_eq_of_ok (hends : types.TextsEnd) {text : CString} {t : Debugger κ}
    (h : sprintVariableDieVal env var types fuel typeOffset varAddr s = (.ok text, t)) :
    valExtent env var types fuel typeOffset varAddr s = ⟨text.length, .ok (), t⟩ := by
  have hprints : Prints (sprintVariableDieVal env var types fuel typeOffset varAddr)
      (sprintValTo env var types fuel typeOffset varAddr) :=
    sprintValTo_prints hends fuel typeOffset varAddr
  generalize hbuffer : List.replicate (text.length + 1) '\x00' = printOutput
  have hlength : printOutput.length = text.length + 1 := by rw [← hbuffer, List.length_replicate]
  have hfits : 0 + text.length < printOutput.length := by omega
  have hruns := sprintValTo_runsAs env var hends fuel typeOffset varAddr
    printOutput 0 s (by omega)
  rw [hprints.ok_iff.mpr ⟨text, h, hfits, rfl⟩] at hruns
  generalize hwritten : writeText '\x00' printOutput 0 text = written at hruns
  generalize hextent : valExtent env var types fuel typeOffset varAddr s = extent at hruns
  cases hruns with
  | @ok other houtcome hchars hother hroom =>
      have hsame : text = other := by
        rw [← textAt_writeText hfits (hprints.textEnds h), hwritten,
          textAt_writeText (hchars.symm ▸ hroom) hother]
      rw [hsame, hchars, ← houtcome]

-- `char var_val_s[256] = {};`, in both of the printer's callers.
def varValS : CString := List.replicate 256 '\x00'

-- Where the printer returns with a buffer of some size, it returns with this one.
def FitsVarValS (env : Env κ) (var : VarEnv κ) (types : TypeEnv) (fuel : Nat)
    (typeOffset : DwRes UWORD) (varAddr : UWORD) (s : Debugger κ) : Prop :=
  ∀ size, 0 < size →
    (sprintValTo env var types fuel typeOffset varAddr (List.replicate size '\x00') 0 s).1 ≠
        .pending →
      (sprintValTo env var types fuel typeOffset varAddr varValS 0 s).1 ≠ .pending

-- With a buffer of this size, the printer waits or writes past the end.
theorem sprintValTo_pending_iff (hends : types.TextsEnd) {size : Nat} (hsize : 0 < size) :
    (sprintValTo env var types fuel typeOffset varAddr (List.replicate size '\x00') 0 s).1 =
        .pending ↔
      (valExtent env var types fuel typeOffset varAddr s).outcome = .pending ∨
        ¬(valExtent env var types fuel typeOffset varAddr s).chars < size := by
  have hlength : (List.replicate size '\x00').length = size := List.length_replicate
  have hruns := sprintValTo_runsAs env var hends fuel typeOffset varAddr
    (List.replicate size '\x00') 0 s (hlength.symm ▸ hsize)
  rw [hruns.pending_iff, hlength, Nat.zero_add]

theorem fitsVarValS_of_chars (hends : types.TextsEnd)
    (h : (valExtent env var types fuel typeOffset varAddr s).outcome ≠ .pending →
      (valExtent env var types fuel typeOffset varAddr s).chars < 256) :
    FitsVarValS env var types fuel typeOffset varAddr s := by
  intro size hsize hreturns hpending
  rw [Ne, sprintValTo_pending_iff hends hsize, not_or] at hreturns
  rcases (sprintValTo_pending_iff hends (by decide)).mp hpending with hwaits | hroom
  · exact hreturns.1 hwaits
  · exact hroom (h hreturns.1)

theorem chars_of_fitsVarValS (hends : types.TextsEnd)
    (h : FitsVarValS env var types fuel typeOffset varAddr s)
    (hreturns : (valExtent env var types fuel typeOffset varAddr s).outcome ≠ .pending) :
    (valExtent env var types fuel typeOffset varAddr s).chars < 256 := by
  have hroom := h ((valExtent env var types fuel typeOffset varAddr s).chars + 1)
    (Nat.succ_pos _)
  rw [Ne, sprintValTo_pending_iff hends (Nat.succ_pos _), not_or, not_not] at hroom
  have hfits := hroom ⟨hreturns, Nat.lt_succ_self _⟩
  rw [varValS, Ne, sprintValTo_pending_iff hends (by decide), not_or, not_not] at hfits
  exact hfits.2

-- The buffer is enough where the braces, labels and values take less than its characters.
theorem value_fits_iff (hends : types.TextsEnd) (fuel : Nat) (typeOffset : DwRes UWORD)
    (varAddr : UWORD) (s : Debugger κ) :
    FitsVarValS env var types fuel typeOffset varAddr s ↔
      ((valExtent env var types fuel typeOffset varAddr s).outcome ≠ .pending →
        (valExtent env var types fuel typeOffset varAddr s).chars < 256) :=
  ⟨chars_of_fitsVarValS hends, fitsVarValS_of_chars hends⟩

end Fits

section Words

variable {encoding : Encoding} {data : UWORD} {text : CString} {base : TypeDie}

theorem formatBase_length (hfloat : encoding ≠ .DW_ATE_float)
    (h : formatBase types encoding data = .ok text) : text.length ≤ 20 := by
  have hdecimal {n : Nat} {digits : Nat} (hpos : 0 < digits) (hn : n < 10 ^ digits) :
      (Nat.toDigits 10 n).length ≤ digits :=
    (Nat.length_toDigits_le_iff (by decide) hpos).mpr hn
  cases encoding with
  | other code => cases h
  | DW_ATE_float => exact absurd rfl hfloat
  | DW_ATE_boolean =>
      cases h
      split_ifs <;> decide
  | DW_ATE_address =>
      cases h
      have hhex : (Nat.toDigits 16 data.toNat).length ≤ 16 :=
        (Nat.length_toDigits_le_iff (by decide) (by decide)).mpr data.isLt
      exact hhex.trans (by decide)
  | DW_ATE_unsigned | DW_ATE_unsigned_char =>
      cases h
      exact hdecimal (by decide) (data.isLt.trans (by decide))
  | DW_ATE_signed | DW_ATE_signed_char =>
      cases h
      have habs : (Nat.toDigits 10 data.toInt.natAbs).length ≤ 19 :=
        hdecimal (by decide) (by
          have hlow := BitVec.le_toInt data
          have hhigh := BitVec.toInt_lt (x := data)
          omega)
      unfold formatSigned
      split_ifs
      · exact Nat.succ_le_succ habs
      · exact habs.trans (by decide)

-- A word but for a double needs 20 characters at most.
theorem decodeBase_length (hfloat : base.encoding ≠ .ok .DW_ATE_float)
    (h : decodeBase types base data = .ok text) : text.length ≤ 20 := by
  obtain ⟨encoding, word, hencoding, hformat⟩ := decodeBase_eq_ok h
  exact formatBase_length (fun hsame => hfloat (hsame ▸ hencoding)) hformat

theorem baseExtent_chars (hfloat : base.encoding ≠ .ok .DW_ATE_float) (varAddr : UWORD)
    (s : Debugger κ) : (baseExtent env types varAddr base s).chars ≤ 20 := by
  unfold baseExtent extentAfter
  rcases ptracePeekData env varAddr s with ⟨data | code | _, t⟩
  · dsimp only
    cases hdecode : decodeBase types base data with
    | ok text => exact decodeBase_length hfloat hdecode
    | noEntry | error => exact Nat.zero_le _
  · exact Nat.zero_le _
  · exact Nat.zero_le _

theorem HasBaseType.valExtent_chars {depth : Nat} {typeOffset : DwRes UWORD}
    (h : HasBaseType types depth typeOffset base) (hfloat : base.encoding ≠ .ok .DW_ATE_float)
    (fuel : Nat) (varAddr : UWORD) (s : Debugger κ) :
    (valExtent env var types fuel typeOffset varAddr s).chars ≤ 20 := by
  have hread {α : Type} (a : α) (next : α → Debugger κ → Extent κ) :
      extentAfter (DwRes.ok a).orReturn next = next a := rfl
  induction h generalizing fuel with
  | base hdie htag =>
      cases fuel with
      | zero => exact Nat.zero_le _
      | succ fuel =>
          rw [valExtent, hread, hdie, hread, htag, hread, if_pos rfl]
          exact baseExtent_chars hfloat varAddr s
  | @modifier offset typeDie base tag depth hdie htag hmodifier _ ih =>
      cases fuel with
      | zero => exact Nat.zero_le _
      | succ fuel =>
          have hbase : tag ≠ .DW_TAG_base_type := fun h => by
            rw [h] at hmodifier
            cases hmodifier
          have hstruct : tag ≠ .DW_TAG_structure_type := fun h => by
            rw [h] at hmodifier
            cases hmodifier
          rw [valExtent, hread, hdie, hread, htag, hread, if_neg hbase, if_neg hstruct,
            if_pos hmodifier]
          exact ih hfloat fuel

-- So a variable of such a type fits, behind any modifiers.
theorem base_value_fits (hends : types.TextsEnd) {depth : Nat} {typeOffset : DwRes UWORD}
    (h : HasBaseType types depth typeOffset base) (hfloat : base.encoding ≠ .ok .DW_ATE_float)
    (fuel : Nat) (varAddr : UWORD) (s : Debugger κ) :
    FitsVarValS env var types fuel typeOffset varAddr s :=
  fitsVarValS_of_chars hends fun _ =>
    Nat.lt_of_le_of_lt (h.valExtent_chars hfloat fuel varAddr s) (by decide)

end Words

section Examples

theorem nested_value_fits :
    FitsVarValS nopEnv implicitVarEnv nestedTypes 8 (.ok 0x50) 0x3000 sevenBehind :=
  (value_fits_iff nestedTypes_textsEnd 8 _ _ _).mpr fun _ => by decide +kernel

-- `struct counters { unsigned long counter0, ..., counter7; }`
def counters : List MemberDie :=
  (List.range 8).map fun i => wordMember (.ok ("counter".toList ++ Nat.toDigits 10 i)) (8 * i) 0x40

def countersTypes : TypeEnv where
  typeOffset _ := .ok 0x50
  offdie offset := .ok (if offset = 0x50 then structOf counters else unsignedType 8)
  formatDouble _ := []
  undefLocation _ := ⟨.noEntry, .noEntry⟩
  fuel := 8

theorem countersTypes_textsEnd : countersTypes.TextsEnd where
  formatDouble _ := List.not_mem_nil
  names offset typeDie hdie := by
    cases hdie
    have hnames : ∀ member ∈ counters, '\x00' ∉ member.shownName := by decide
    intro member hmember
    split_ifs at hmember
    · exact hnames member hmember
    · cases hmember

-- Each counter has its greatest value.
def allOnes : Debugger Unit := atPrompt (fun _ => 0xff) 0x2000

theorem counters_overflow :
    (sprintVariableDieVal nopEnv implicitVarEnv countersTypes 8 (.ok 0x50) 0x3000
        allOnes).1.value?.map List.length = some 280 ∧
      ¬FitsVarValS nopEnv implicitVarEnv countersTypes 8 (.ok 0x50) 0x3000 allOnes := by
  refine ⟨by decide +kernel, fun hfits => ?_⟩
  have hchars := chars_of_fitsVarValS countersTypes_textsEnd hfits (by decide +kernel)
  revert hchars
  decide +kernel

end Examples

end VDebugger
