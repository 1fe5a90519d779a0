import VDebugger.Machine.Terminated
import VDebugger.Var.Members

namespace VDebugger

open Machine

variable {κ : Type} {env : Env κ} {var : VarEnv κ} {types : TypeEnv}

section Printer

-- `cur_offset += sprintf(print_output + cur_offset, ...)`, where `print_output` points to
-- `start`. A text that does not fit is written past the end of the buffer.
def sprintf (start : Nat) (output : CString) (curOffset : Nat) (text : CString) :
    DebuggerM κ (CString × Nat) :=
  if start + curOffset + text.length < output.length then
    pure (writeText '\x00' output (start + curOffset) text, curOffset + text.length)
  else Action.block

def strlen (output : CString) (offset : Nat) : Nat := (textAt '\x00' output offset).length

-- `sprint_var_die_given_base` with its buffer
def sprintBaseTo (env : Env κ) (types : TypeEnv) (varAddr : UWORD) (typeDie : TypeDie)
    (printOutput : CString) (start : Nat) : DebuggerM κ CString := do
  let data ← ptracePeekData env varAddr
  let text ← (decodeBase types typeDie data).orReturn
  let (printOutput, _) ← sprintf start printOutput 0 text
  pure printOutput

-- `[%i]%s: `
def numberedName (i : Nat) (memberName : CString) : CString :=
  '[' :: Nat.toDigits 10 i ++ ']' :: memberName ++ ": ".toList

-- What is written before a member's value: a separator, and then the number and the name.
def sprintLabelTo (start i : Nat) (member : MemberDie) (printOutput : CString) (curOffset : Nat) :
    DebuggerM κ (CString × Nat) := do
  let (printOutput, curOffset) ←
    if i > 0 then sprintf start printOutput curOffset ", ".toList
    else pure (printOutput, curOffset)
  match member.diename with
  | .error => Action.fail 1
  | .noEntry => sprintf start printOutput curOffset (numberedName i "--".toList)
  | .ok memberName => sprintf start printOutput curOffset (numberedName i memberName)

-- The loop over the members with its buffer, and the brace behind it.
def sprintMembersTo (env : Env κ) (var : VarEnv κ) (types : TypeEnv) (locInfo : LocInfo)
    (varAddr : UWORD) (sprintVal : DwRes UWORD → UWORD → CString → Nat → DebuggerM κ CString)
    (start : Nat) : Nat → Nat → List (DwRes MemberDie) → CString → Nat → DebuggerM κ CString
  | 0, _, _, printOutput, curOffset => do
      let (printOutput, _) ← sprintf start printOutput curOffset ['}']
      pure printOutput
  | passes + 1, i, children, printOutput, curOffset =>
      match getDataMembers children with
      | .noEntry | .error => do
          let (printOutput, _) ← sprintf start printOutput curOffset ['}']
          pure printOutput
      | .ok (member, rest) => do
          let (printOutput, curOffset) ← sprintLabelTo start i member printOutput curOffset
          match ← memberAddr env var types locInfo varAddr member with
          | none => pure printOutput
          | some addr => do
              let printOutput ← sprintVal member.typeOffset addr printOutput (start + curOffset)
              sprintMembersTo env var types locInfo varAddr sprintVal start passes (i + 1) rest
                printOutput (curOffset + strlen printOutput (start + curOffset))

-- `sprint_var_die_given_struct_type` with its buffer
def sprintStructTo (env : Env κ) (var : VarEnv κ) (types : TypeEnv)
    (sprintVal : DwRes UWORD → UWORD → CString → Nat → DebuggerM κ CString) (varAddr : UWORD)
    (structTypeDie : TypeDie) (printOutput : CString) (start : Nat) : DebuggerM κ CString := do
  let locInfo ← structLocInfo env var varAddr
  let (printOutput, curOffset) ← sprintf start printOutput 0 ['{']
  sprintMembersTo env var types locInfo varAddr sprintVal start structTypeDie.children.length 0
    structTypeDie.children printOutput curOffset

-- `sprint_variable_die_val` with its buffer
def sprintValTo (env : Env κ) (var : VarEnv κ) (types : TypeEnv) :
    Nat → DwRes UWORD → UWORD → CString → Nat → DebuggerM κ CString
  | 0, _, _, _, _ => Action.block
  | fuel + 1, typeOffset, varAddr, printOutput, start => do
      let offset ← typeOffset.orReturn
      let typeDie ← (types.offdie offset).orReturn
      let typeTag ← typeDie.tag.orReturn
      match typeTag with
      | .DW_TAG_base_type => sprintBaseTo env types varAddr typeDie printOutput start
      | .DW_TAG_structure_type =>
          sprintStructTo env var types (sprintValTo env var types fuel) varAddr typeDie printOutput
            start
      | .DW_TAG_array_type | .DW_TAG_class_type | .DW_TAG_union_type => Action.fail 1
      | .DW_TAG_atomic_type | .DW_TAG_const_type | .DW_TAG_immutable_type | .DW_TAG_packed_type
      | .DW_TAG_pointer_type | .DW_TAG_reference_type | .DW_TAG_restrict_type
      | .DW_TAG_rvalue_reference_type | .DW_TAG_shared_type | .DW_TAG_volatile_type
      | .DW_TAG_typedef => sprintValTo env var types fuel typeDie.typeOffset varAddr printOutput start
      | .DW_TAG_member | .other _ => Action.fail 1

end Printer

section Sprintf

variable {start curOffset i : Nat} {printOutput text : CString} {s t : Debugger κ}
  {written : CString × Nat}

theorem sprintf_eq_ok : sprintf start printOutput curOffset text s = (.ok written, t) ↔
    start + curOffset + text.length < printOutput.length ∧
      written = (writeText '\x00' printOutput (start + curOffset) text, curOffset + text.length) ∧
      s = t := by
  unfold sprintf
  split_ifs with hfits
  · simp [hfits, eq_comm]
  · exact iff_of_false (fun h => by cases h) fun h => hfits h.1

theorem sprintf_of_not_fits (h : ¬start + curOffset + text.length < printOutput.length)
    (s : Debugger κ) : sprintf start printOutput curOffset text s = (.pending, s) := by
  unfold sprintf
  rw [if_neg h]
  rfl

theorem memberLabel_eq (i : Nat) (name : CString) :
    memberLabel i name = (if i > 0 then ", ".toList else []) ++ numberedName i name := by
  simp only [memberLabel, numberedName, List.append_assoc]

-- One text written behind another is both of them written at once.
theorem sprintf_append {more : CString} :
    (∃ first u, sprintf start printOutput curOffset text s = (.ok first, u) ∧
        sprintf start first.1 first.2 more u = (.ok written, t)) ↔
      sprintf start printOutput curOffset (text ++ more) s = (.ok written, t) := by
  simp only [sprintf_eq_ok, List.length_append]
  constructor
  · rintro ⟨first, u, ⟨hfits, rfl, rfl⟩, hmore, rfl, rfl⟩
    rw [length_writeText hfits] at hmore
    have hboth : start + curOffset + text.length + more.length < printOutput.length := by
      dsimp only at hmore
      omega
    refine ⟨by omega, ?_, rfl⟩
    dsimp only
    rw [← writeText_append hboth, Nat.add_assoc, Nat.add_assoc]
  · rintro ⟨hfits, rfl, rfl⟩
    have hboth : start + curOffset + text.length + more.length < printOutput.length := by omega
    refine ⟨_, s, ⟨by omega, rfl, rfl⟩, ?_, ?_, rfl⟩
    · rw [length_writeText (by omega)]
      dsimp only
      omega
    · dsimp only
      rw [← writeText_append hboth, Nat.add_assoc, Nat.add_assoc]

theorem sprintf_sprintf (start : Nat) (printOutput : CString) (curOffset : Nat)
    (text more : CString) :
    (sprintf start printOutput curOffset text >>= fun first => sprintf start first.1 first.2 more :
      DebuggerM κ (CString × Nat)) = sprintf start printOutput curOffset (text ++ more) := by
  funext s
  by_cases hfits : start + curOffset + (text ++ more).length < printOutput.length
  · have hboth := sprintf_eq_ok (s := s).mpr ⟨hfits, rfl, rfl⟩
    rw [hboth, Action.bind_eq_ok]
    exact sprintf_append.mpr hboth
  · rw [sprintf_of_not_fits hfits]
    by_cases hfirst : start + curOffset + text.length < printOutput.length
    · rw [Action.bind_of_ok (sprintf_eq_ok.mpr ⟨hfirst, rfl, rfl⟩)]
      refine sprintf_of_not_fits (fun h => hfits ?_) s
      rw [length_writeText hfirst] at h
      rw [List.length_append]
      omega
    · rw [Action.bind_of_pending (sprintf_of_not_fits hfirst s)]

-- The separator and the rest of the label are one text.
theorem sprintLabelTo_eq {member : MemberDie} (i : Nat) (hname : member.diename ≠ .error) :
    (sprintLabelTo start i member printOutput curOffset : DebuggerM κ (CString × Nat)) =
      sprintf start printOutput curOffset (memberLabel i member.shownName) := by
  cases hdie : member.diename with
  | error => exact absurd hdie hname
  | noEntry | ok memberName =>
      simp only [sprintLabelTo, MemberDie.shownName, hdie, memberLabel_eq]
      split_ifs
      · exact sprintf_sprintf start printOutput curOffset _ _
      · rfl

theorem sprintLabelTo_eq_ok {member : MemberDie} :
    sprintLabelTo start i member printOutput curOffset s = (.ok written, t) ↔
      member.diename ≠ .error ∧
        sprintf start printOutput curOffset (memberLabel i member.shownName) s =
          (.ok written, t) := by
  by_cases hname : member.diename = .error
  · refine iff_of_false (fun h => ?_) fun h => h.1 hname
    simp only [sprintLabelTo, hname] at h
    split_ifs at h
    · obtain ⟨_, _, -, hfail⟩ := Action.bind_eq_ok.mp h
      cases hfail
    · cases h
  · rw [sprintLabelTo_eq i hname]
    exact ⟨fun h => ⟨hname, h⟩, And.right⟩

end Sprintf

section Characters

theorem nul_notMem_toDigits (base n : Nat) : '\x00' ∉ Nat.toDigits base n := by
  have hhex : ∀ d < 16, '\x00' ≠ Nat.digitChar d := by decide
  have hdigit (d : Nat) : '\x00' ≠ Nat.digitChar d := by
    by_cases hd : d < 16
    · exact hhex d hd
    · rw [Nat.digitChar_eq_star.mpr (by omega)]
      decide
  have hcore (fuel n : Nat) (behind : CString) (hbehind : '\x00' ∉ behind) :
      '\x00' ∉ Nat.toDigitsCore base fuel n behind := by
    induction fuel generalizing n behind with
    | zero => exact hbehind
    | succ fuel ih =>
        have hcons : '\x00' ∉ Nat.digitChar (n % base) :: behind := fun h =>
          (List.mem_cons.mp h).elim (hdigit _) hbehind
        rw [Nat.toDigitsCore]
        split
        · exact hcons
        · exact ih _ _ hcons
  exact hcore _ _ _ List.not_mem_nil

theorem nul_notMem_memberLabel {i : Nat} {name : CString} (hname : '\x00' ∉ name) :
    '\x00' ∉ memberLabel i name := by
  have hdigits := nul_notMem_toDigits 10 i
  unfold memberLabel
  split_ifs <;> simp [hdigits, hname]

theorem nul_notMem_formatBase (hdouble : ∀ data, '\x00' ∉ types.formatDouble data)
    {encoding : Encoding} {data : UWORD} {text : CString}
    (h : formatBase types encoding data = .ok text) : '\x00' ∉ text := by
  have hdigits := nul_notMem_toDigits 10
  cases encoding with
  | other code => cases h
  | DW_ATE_float =>
      cases h
      exact hdouble data
  | DW_ATE_boolean =>
      cases h
      split_ifs <;> decide
  | DW_ATE_address =>
      cases h
      exact nul_notMem_toDigits 16 _
  | DW_ATE_unsigned | DW_ATE_unsigned_char =>
      cases h
      exact hdigits _
  | DW_ATE_signed | DW_ATE_signed_char =>
      cases h
      rw [formatSigned_eq]
      exact notMem_decimal (by decide) (by decide) _

-- The text of a value is that of some word, in the encoding of the type.
theorem decodeBase_eq_ok {typeDie : TypeDie} {data : UWORD} {text : CString}
    (h : decodeBase types typeDie data = .ok text) :
    ∃ encoding word, typeDie.encoding = .ok encoding ∧ formatBase types encoding word = .ok text := by
  unfold decodeBase at h
  cases hencoding : typeDie.encoding with
  | noEntry | error =>
      rw [hencoding] at h
      cases h
  | ok encoding =>
      rw [hencoding] at h
      cases hsize : typeDie.bytesize with
      | error =>
          rw [hsize] at h
          cases h
      | noEntry =>
          rw [hsize] at h
          exact ⟨encoding, data, rfl, h⟩
      | ok byteSize =>
          rw [hsize] at h
          dsimp only at h
          split_ifs at h
          · exact ⟨encoding, _, rfl, h⟩
          · exact ⟨encoding, data, rfl, h⟩

theorem nul_notMem_decodeBase (hdouble : ∀ data, '\x00' ∉ types.formatDouble data)
    {typeDie : TypeDie} {data : UWORD} {text : CString}
    (h : decodeBase types typeDie data = .ok text) : '\x00' ∉ text := by
  obtain ⟨encoding, word, -, hformat⟩ := decodeBase_eq_ok h
  exact nul_notMem_formatBase hdouble hformat

-- The texts that libdwarf and the C library hand over end at their first NUL.
def NamesEnd (children : List (DwRes MemberDie)) : Prop :=
  ∀ member ∈ dataMembers children, '\x00' ∉ member.shownName

structure TypeEnv.TextsEnd (types : TypeEnv) : Prop where
  formatDouble : ∀ data, '\x00' ∉ types.formatDouble data
  names : ∀ offset typeDie, types.offdie offset = .ok typeDie → NamesEnd typeDie.children

end Characters

section Refinement

-- The printer into a buffer comes to an end just if the printer of texts does and its text
-- fits, and then it has written that text.
structure Prints (x : DebuggerM κ CString) (y : CString → Nat → DebuggerM κ CString) : Prop where
  ok_iff : ∀ {printOutput start s result t}, y printOutput start s = (.ok result, t) ↔
    ∃ text, x s = (.ok text, t) ∧ start + text.length < printOutput.length ∧
      result = writeText '\x00' printOutput start text
  textEnds : ∀ {s text t}, x s = (.ok text, t) → '\x00' ∉ text

variable {locInfo : LocInfo} {varAddr : UWORD} {start curOffset i passes : Nat}
  {printOutput result : CString} {s t : Debugger κ} {children rest : List (DwRes MemberDie)}
  {member : MemberDie}
  {sprintVal : DwRes UWORD → UWORD → DebuggerM κ CString}
  {sprintTo : DwRes UWORD → UWORD → CString → Nat → DebuggerM κ CString}

theorem sprintMembersTo_stops (hget : ∀ next, getDataMembers children ≠ .ok next) :
    sprintMembersTo env var types locInfo varAddr sprintTo start passes i children printOutput
        curOffset s = (.ok result, t) ↔
      start + curOffset + 1 < printOutput.length ∧
        result = writeText '\x00' printOutput (start + curOffset) ['}'] ∧ s = t := by
  have hbrace : (do
      let (printOutput, _) ← sprintf start printOutput curOffset ['}']
      pure printOutput : DebuggerM κ CString) s = (.ok result, t) ↔
        start + curOffset + 1 < printOutput.length ∧
          result = writeText '\x00' printOutput (start + curOffset) ['}'] ∧ s = t := by
    rw [Action.bind_eq_ok]
    simp only [sprintf_eq_ok]
    constructor
    · rintro ⟨_, _, ⟨hfits, rfl, rfl⟩, hresult⟩
      cases hresult
      exact ⟨hfits, rfl, rfl⟩
    · rintro ⟨hfits, rfl, rfl⟩
      exact ⟨_, _, ⟨hfits, rfl, rfl⟩, rfl⟩
  cases passes with
  | zero => exact hbrace
  | succ passes =>
      rw [sprintMembersTo]
      cases hnext : getDataMembers children with
      | noEntry | error => exact hbrace
      | ok next => exact absurd hnext (hget next)

theorem sprintMembersTo_pass (hget : getDataMembers children = .ok (member, rest)) :
    sprintMembersTo env var types locInfo varAddr sprintTo start (passes + 1) i children printOutput
        curOffset =
      (sprintLabelTo start i member printOutput curOffset >>= fun label =>
        memberAddr env var types locInfo varAddr member >>= fun addr =>
          match addr with
          | none => pure label.1
          | some addr =>
              sprintTo member.typeOffset addr label.1 (start + label.2) >>= fun printOutput =>
                sprintMembersTo env var types locInfo varAddr sprintTo start passes (i + 1) rest
                  printOutput (label.2 + strlen printOutput (start + label.2))) := by
  rw [sprintMembersTo, hget]

theorem NamesEnd.cons (h : NamesEnd children) (hget : getDataMembers children = .ok (member, rest)) :
    '\x00' ∉ member.shownName ∧ NamesEnd rest := by
  have hmembers := (getDataMembers_ok hget).1
  refine ⟨h member ?_, fun other hother => h other ?_⟩
  · rw [hmembers]
    exact List.mem_cons_self
  · rw [hmembers]
    exact List.mem_cons_of_mem _ hother

-- A text written behind another one, where `cur_offset` counts from the start of the output.
theorem writeText_behind {first more : CString}
    (hfirst : start + curOffset + first.length < printOutput.length) :
    (start + (curOffset + first.length) + more.length <
          (writeText '\x00' printOutput (start + curOffset) first).length ∧
        result = writeText '\x00' (writeText '\x00' printOutput (start + curOffset) first)
          (start + (curOffset + first.length)) more) ↔
      start + curOffset + (first ++ more).length < printOutput.length ∧
        result = writeText '\x00' printOutput (start + curOffset) (first ++ more) := by
  rw [length_writeText hfirst, List.length_append, ← Nat.add_assoc, ← Nat.add_assoc]
  refine and_congr_right fun hfits => ?_
  rw [writeText_append hfits]

-- A value printed behind a label.
theorem Prints.behind {x : DebuggerM κ CString} {y : CString → Nat → DebuggerM κ CString}
    (h : Prints x y) {label : CString}
    (hlabel : start + curOffset + label.length < printOutput.length) :
    y (writeText '\x00' printOutput (start + curOffset) label)
        (start + (curOffset + label.length)) s = (.ok result, t) ↔
      ∃ val, x s = (.ok val, t) ∧ start + curOffset + (label ++ val).length < printOutput.length ∧
        result = writeText '\x00' printOutput (start + curOffset) (label ++ val) := by
  rw [h.ok_iff]
  exact exists_congr fun val => and_congr_right fun _ => writeText_behind hlabel

theorem strlen_behind {label val : CString}
    (hfits : start + curOffset + (label ++ val).length < printOutput.length)
    (hval : '\x00' ∉ val) :
    strlen (writeText '\x00' printOutput (start + curOffset) (label ++ val))
      (start + (curOffset + label.length)) = val.length := by
  rw [List.length_append, ← Nat.add_assoc] at hfits
  rw [strlen, ← Nat.add_assoc, textAt_writeText_append hfits hval]

theorem stopsTo_eq_ok (hget : ∀ next, getDataMembers children ≠ .ok next) :
    sprintMembersTo env var types locInfo varAddr sprintTo start passes i children printOutput
        curOffset s = (.ok result, t) ↔
      ∃ text, sprintMembers env var types locInfo varAddr sprintVal passes i children s =
          (.ok text, t) ∧ start + curOffset + text.length < printOutput.length ∧
        result = writeText '\x00' printOutput (start + curOffset) text := by
  rw [sprintMembersTo_stops hget, sprintMembers_stops hget]
  constructor
  · rintro ⟨hfits, rfl, rfl⟩
    exact ⟨['}'], rfl, hfits, rfl⟩
  · rintro ⟨text, htext, hfits, rfl⟩
    cases htext
    exact ⟨hfits, rfl, rfl⟩

-- The offset is where the texts end that are written already, in each pass.
theorem sprintMembersTo_eq_ok
    (hval : ∀ typeOffset addr, Prints (sprintVal typeOffset addr) (sprintTo typeOffset addr))
    (hpasses : children.length ≤ passes) (hnames : NamesEnd children) :
    sprintMembersTo env var types locInfo varAddr sprintTo start passes i children printOutput
        curOffset s = (.ok result, t) ↔
      ∃ text, sprintMembers env var types locInfo varAddr sprintVal passes i children s =
          (.ok text, t) ∧ start + curOffset + text.length < printOutput.length ∧
        result = writeText '\x00' printOutput (start + curOffset) text := by
  induction passes generalizing i children printOutput curOffset s with
  | zero =>
      have hnone : children = [] := List.length_eq_zero_iff.mp (Nat.le_zero.mp hpasses)
      subst hnone
      exact stopsTo_eq_ok fun next h => by cases h
  | succ passes ih =>
      by_cases hget : ∀ next, getDataMembers children ≠ .ok next
      · exact stopsTo_eq_ok hget
      obtain ⟨⟨member, rest⟩, hget⟩ := not_forall_not.mp hget
      have hrest : rest.length ≤ passes := by
        have hlength := (getDataMembers_ok hget).2.2
        omega
      have hbehind := (hnames.cons hget).2
      rw [sprintMembersTo_pass hget, Action.bind_eq_ok]
      simp only [sprintLabelTo_eq_ok, sprintf_eq_ok]
      by_cases hname : member.diename = .error
      · rw [sprintMembers_unread hget hname]
        exact iff_of_false (fun ⟨_, _, h, _⟩ => h.1 hname) fun ⟨_, h, _⟩ => by cases h
      rw [sprintMembers_pass hget hname]
      simp only [Action.bind_eq_ok]
      constructor
      · rintro ⟨_, _, ⟨-, hlabel, rfl, rfl⟩, addr, u, haddr, hprint⟩
        cases addr with
        | none =>
            cases hprint
            exact ⟨_, ⟨none, t, haddr, rfl⟩, hlabel, rfl⟩
        | some addr =>
            obtain ⟨output, v, houtput, hloop⟩ := Action.bind_eq_ok.mp hprint
            obtain ⟨val, hx, hfits, rfl⟩ := ((hval _ _).behind hlabel).mp houtput
            rw [strlen_behind hfits ((hval _ _).textEnds hx), Nat.add_assoc, ← List.length_append,
              ih hrest hbehind] at hloop
            obtain ⟨behind, hrun, hwritten⟩ := hloop
            obtain ⟨htotal, hresult⟩ := (writeText_behind hfits).mp hwritten
            exact ⟨_, ⟨some addr, u, haddr, Action.bind_eq_ok.mpr ⟨val, v, hx,
              Action.bind_eq_ok.mpr ⟨behind, t, hrun, rfl⟩⟩⟩, htotal, hresult⟩
      · rintro ⟨text, ⟨addr, u, haddr, htext⟩, htotal, rfl⟩
        cases addr with
        | none =>
            cases htext
            exact ⟨_, s, ⟨hname, htotal, rfl, rfl⟩, none, t, haddr, rfl⟩
        | some addr =>
            obtain ⟨val, v, hx, htext⟩ := Action.bind_eq_ok.mp htext
            obtain ⟨behind, w, hrun, htext⟩ := Action.bind_eq_ok.mp htext
            cases htext
            have hfits : start + curOffset +
                (memberLabel i member.shownName ++ val).length < printOutput.length :=
              fits_of_append htotal
            have hlabel : start + curOffset + (memberLabel i member.shownName).length <
                printOutput.length := fits_of_append hfits
            refine ⟨_, s, ⟨hname, hlabel, rfl, rfl⟩, some addr, u, haddr, Action.bind_eq_ok.mpr
              ⟨_, v, ((hval _ _).behind hlabel).mpr ⟨val, hx, hfits, rfl⟩, ?_⟩⟩
            rw [strlen_behind hfits ((hval _ _).textEnds hx), Nat.add_assoc, ← List.length_append,
              ih hrest hbehind]
            exact ⟨behind, hrun, (writeText_behind hfits).mpr ⟨htotal, rfl⟩⟩

theorem membersText_ends {entries : List (MemberEntry κ)} {cut : Option MemberDie}
    (hval : ∀ typeOffset addr u v val, sprintVal typeOffset addr u = (.ok val, v) → '\x00' ∉ val)
    (hnames : NamesEnd children)
    (hrun : MembersPrinted env var types locInfo varAddr sprintVal children s entries cut t) :
    '\x00' ∉ membersText i entries cut := by
  induction hrun generalizing i with
  | last => exact fun h => absurd (List.mem_singleton.mp h) (by decide)
  | cut hget => exact nul_notMem_memberLabel (hnames.cons hget).1
  | next hget _ _ hprint _ ih =>
      obtain ⟨hname, hbehind⟩ := hnames.cons hget
      intro h
      rcases List.mem_append.mp h with h | h
      · rcases List.mem_append.mp h with h | h
        · exact nul_notMem_memberLabel hname h
        · exact hval _ _ _ _ _ hprint h
      · exact ih hbehind h

theorem sprintStructTo_prints {structTypeDie : TypeDie}
    (hval : ∀ typeOffset addr, Prints (sprintVal typeOffset addr) (sprintTo typeOffset addr))
    (hnames : NamesEnd structTypeDie.children) :
    Prints (sprintVarDieGivenStructType env var types sprintVal varAddr structTypeDie)
      (sprintStructTo env var types sprintTo varAddr structTypeDie) := by
  have hstruct : sprintVarDieGivenStructType env var types sprintVal varAddr structTypeDie =
      structLocInfo env var varAddr >>= fun locInfo =>
        sprintMembers env var types locInfo varAddr sprintVal structTypeDie.children.length 0
          structTypeDie.children >>= fun members => pure ('{' :: members) := rfl
  constructor
  · intro printOutput start s result t
    unfold sprintStructTo
    rw [hstruct]
    simp only [Action.bind_eq_ok, sprintf_eq_ok, sprintMembersTo_eq_ok hval (Nat.le_refl _) hnames]
    constructor
    · rintro ⟨locInfo, u, hinit, _, _, ⟨hopen, rfl, rfl⟩, members, hrun, hwritten⟩
      obtain ⟨hfits, hresult⟩ := (writeText_behind hopen).mp hwritten
      exact ⟨_, ⟨locInfo, u, hinit, members, t, hrun, rfl⟩, hfits, hresult⟩
    · rintro ⟨_, ⟨locInfo, u, hinit, members, v, hrun, htext⟩, hfits, rfl⟩
      cases htext
      have hopen : start + 0 + ['{'].length < printOutput.length := by
        rw [List.length_cons] at hfits
        rw [List.length_singleton]
        omega
      exact ⟨locInfo, u, hinit, _, u, ⟨hopen, rfl, rfl⟩, members, hrun,
        (writeText_behind hopen).mpr ⟨hfits, rfl⟩⟩
  · intro s text t h
    rw [hstruct] at h
    obtain ⟨locInfo, u, -, h⟩ := Action.bind_eq_ok.mp h
    obtain ⟨members, v, hrun, htext⟩ := Action.bind_eq_ok.mp h
    cases htext
    obtain ⟨entries, cut, hpasses, rfl⟩ := (sprintMembers_eq_ok (Nat.le_refl _)).mp hrun
    have hends : ∀ typeOffset addr u v val,
        sprintVal typeOffset addr u = (.ok val, v) → '\x00' ∉ val :=
      fun typeOffset addr _ _ _ h => (hval typeOffset addr).textEnds h
    exact fun h => (List.mem_cons.mp h).elim (by decide) (membersText_ends hends hnames hpasses)

theorem sprintBaseTo_prints (hends : types.TextsEnd) (typeDie : TypeDie) :
    Prints (sprintVarDieGivenBase env types varAddr typeDie)
      (sprintBaseTo env types varAddr typeDie) := by
  constructor
  · intro printOutput start s result t
    unfold sprintBaseTo sprintVarDieGivenBase
    simp only [Action.bind_eq_ok, sprintf_eq_ok]
    constructor
    · rintro ⟨data, u, hdata, text, v, htext, _, _, ⟨hfits, rfl, rfl⟩, hresult⟩
      cases hresult
      exact ⟨text, ⟨data, u, hdata, htext⟩, hfits, rfl⟩
    · rintro ⟨text, ⟨data, u, hdata, htext⟩, hfits, rfl⟩
      exact ⟨data, u, hdata, text, t, htext, _, t, ⟨hfits, rfl, rfl⟩, rfl⟩
  · intro s text t h
    obtain ⟨data, u, -, htext⟩ := Action.bind_eq_ok.mp h
    cases hdecode : decodeBase types typeDie data with
    | ok found =>
        rw [hdecode] at htext
        cases htext
        exact nul_notMem_decodeBase hends.formatDouble hdecode
    | noEntry | error =>
        rw [hdecode] at htext
        cases htext

theorem Prints.fail (code : Int) : Prints (Action.fail code : DebuggerM κ CString)
    fun _ _ => Action.fail code where
  ok_iff := iff_of_false (fun h => by cases h) fun ⟨_, h, _⟩ => by cases h
  textEnds h := by cases h

theorem Prints.block : Prints (Action.block : DebuggerM κ CString) fun _ _ => Action.block where
  ok_iff := iff_of_false (fun h => by cases h) fun ⟨_, h, _⟩ => by cases h
  textEnds h := by cases h

-- What comes before the printing is the same in both.
theorem Prints.bind {α : Type} {x : DebuggerM κ α} {f : α → DebuggerM κ CString}
    {g : α → CString → Nat → DebuggerM κ CString} (h : ∀ a, Prints (f a) (g a)) :
    Prints (x >>= f) fun printOutput start => x >>= fun a => g a printOutput start where
  ok_iff {printOutput start s result t} := by
    simp only [Action.bind_eq_ok, (h _).ok_iff]
    constructor
    · rintro ⟨a, u, hx, text, htext, hwritten⟩
      exact ⟨text, ⟨a, u, hx, htext⟩, hwritten⟩
    · rintro ⟨text, ⟨a, u, hx, htext⟩, hwritten⟩
      exact ⟨a, u, hx, text, htext, hwritten⟩
  textEnds hrun := by
    obtain ⟨a, u, -, htext⟩ := Action.bind_eq_ok.mp hrun
    exact (h a).textEnds htext

theorem prints_orReturn_bind {α : Type} {res : DwRes α} {f : α → DebuggerM κ CString}
    {g : α → CString → Nat → DebuggerM κ CString}
    (h : ∀ a, res = .ok a → Prints (f a) (g a)) :
    Prints (res.orReturn >>= f) fun printOutput start =>
      res.orReturn >>= fun a => g a printOutput start := by
  cases res with
  | ok a => exact h a rfl
  | noEntry => exact .fail (-1)
  | error => exact .fail 1

-- The text is in the buffer, for the types of all variables.
theorem sprintValTo_prints (hends : types.TextsEnd) (fuel : Nat) (typeOffset : DwRes UWORD)
    (varAddr : UWORD) : Prints (sprintVariableDieVal env var types fuel typeOffset varAddr)
      (sprintValTo env var types fuel typeOffset varAddr) := by
  induction fuel generalizing typeOffset varAddr with
  | zero => exact .block
  | succ fuel ih =>
      refine prints_orReturn_bind fun offset _ => ?_
      refine prints_orReturn_bind fun typeDie hdie => ?_
      refine prints_orReturn_bind fun typeTag _ => ?_
      cases typeTag with
      | DW_TAG_base_type => exact sprintBaseTo_prints hends typeDie
      | DW_TAG_structure_type => exact sprintStructTo_prints ih (hends.names offset typeDie hdie)
      | DW_TAG_array_type | DW_TAG_class_type | DW_TAG_union_type | DW_TAG_member => exact .fail 1
      | other tag => exact .fail 1
      | DW_TAG_atomic_type | DW_TAG_const_type | DW_TAG_immutable_type | DW_TAG_packed_type
      | DW_TAG_pointer_type | DW_TAG_reference_type | DW_TAG_restrict_type
      | DW_TAG_rvalue_reference_type | DW_TAG_shared_type | DW_TAG_volatile_type
      | DW_TAG_typedef => exact ih typeDie.typeOffset varAddr

end Refinement

end VDebugger
