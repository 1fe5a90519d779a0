import VDebugger.DwarfInfo.SubProg
import VDebugger.Var.Offsets

namespace VDebugger

section Iterator

variable {α τ : Type} [DecidableEq τ]

-- A `Dwarf_Die` among the children of one DIE is the place of the child, and `none` the
-- null pointer. Where these calls fail they store nothing.
def dwarfChild (children : List (DwRes α)) (child : Option Nat) : DwRes Unit × Option Nat :=
  match children with
  | [] => (.noEntry, child)
  | .ok _ :: _ => (.ok (), some 0)
  | .noEntry :: _ => (.noEntry, child)
  | .error :: _ => (.error, child)

def dwarfSiblingof (children : List (DwRes α)) (die nextDie : Option Nat) :
    DwRes Unit × Option Nat :=
  match die with
  | none => (.error, nextDie)
  | some place =>
      match children[place + 1]? with
      | none => (.noEntry, nextDie)
      | some (.ok _) => (.ok (), some (place + 1))
      | some .noEntry => (.noEntry, nextDie)
      | some .error => (.error, nextDie)

def dwarfTag (tagOf : α → DwRes τ) (children : List (DwRes α)) (die : Option Nat) : DwRes τ :=
  match die with
  | none => .error
  | some place =>
      match children[place]? with
      | some (.ok child) => tagOf child
      | _ => .error

-- `dwarf_siblingof_c` with the test of its result, and what is done with the next sibling.
def moveToSibling (children : List (DwRes α)) (fparam nextDie : Option Nat)
    (goOn : Option Nat → Option (DwRes Unit × Option Nat)) : Option (DwRes Unit × Option Nat) :=
  match dwarfSiblingof children fparam nextDie with
  | (.ok (), nextDie) => goOn nextDie
  | (res, nextDie) => some (res, nextDie)

-- The loop over the siblings, and what it leaves in `*fparam`. `none` where it is not seen to
-- end in so many passes.
def traverseSiblings (tagOf : α → DwRes τ) (wanted : τ) (children : List (DwRes α)) :
    Nat → Option Nat → Option Nat → Option (DwRes Unit × Option Nat)
  | 0, _, _ => none
  | passes + 1, fparam, nextDie =>
      match dwarfTag tagOf children fparam with
      | .noEntry => some (.noEntry, fparam)
      | .error => some (.error, fparam)
      | .ok dwTag =>
          if dwTag = wanted then some (.ok (), fparam)
          else
            moveToSibling children fparam nextDie fun nextDie =>
              traverseSiblings tagOf wanted children passes nextDie nextDie

-- One call of `get_formal_params` or `get_data_members`.
def getWantedChild (tagOf : α → DwRes τ) (wanted : τ) (children : List (DwRes α))
    (fparam : Option Nat) : Option (DwRes Unit × Option Nat) :=
  match fparam with
  | none =>
      match dwarfChild children fparam with
      | (.ok (), fparam) => traverseSiblings tagOf wanted children children.length fparam none
      | (res, fparam) => some (res, fparam)
  | some _ =>
      moveToSibling children fparam none fun nextDie =>
        traverseSiblings tagOf wanted children children.length nextDie nextDie

-- The result of call number `n`, where each call is given what the one before it has left.
def nthCall (call : Option Nat → Option (DwRes Unit × Option Nat)) :
    Nat → Option (DwRes Unit × Option Nat)
  | 0 => call none
  | n + 1 => (nthCall call n).bind fun before => call before.2

-- The calls deliver these places one after the other, and then no entry.
structure Enumerates (call : Option Nat → Option (DwRes Unit × Option Nat)) (places : List Nat) :
    Prop where
  each : ∀ n place, places[n]? = some place → nthCall call n = some (.ok (), some place)
  last : ∃ fparam, nthCall call places.length = some (.noEntry, fparam)

-- The children come one by one without a failure, and their tags too.
def ReadsChildren (tagOf : α → DwRes τ) (children : List (DwRes α)) : Prop :=
  ∀ child ∈ children, ∃ die tag, child = .ok die ∧ tagOf die = .ok tag

def isWanted (tagOf : α → DwRes τ) (wanted : τ) (child : DwRes α) : Bool :=
  match child with
  | .ok die => tagOf die = .ok wanted
  | .noEntry | .error => false

variable {tagOf : α → DwRes τ} {wanted : τ} {children behind : List (DwRes α)}

-- What a call does that starts to look at a place: it moves on to the first wanted child there
-- or behind it.
structure MovesOn (tagOf : α → DwRes τ) (wanted : τ) (start : Nat) (behind : List (DwRes α))
    (result : Option (DwRes Unit × Option Nat)) : Prop where
  found : ∀ place later, behind.findIdxs (isWanted tagOf wanted) start = place :: later →
    result = some (.ok (), some place)
  missing : behind.findIdxs (isWanted tagOf wanted) start = [] →
    ∃ fparam, result = some (.noEntry, fparam)

namespace MovesOn

variable {child : DwRes α} {start : Nat} {result : Option (DwRes Unit × Option Nat)}

theorem at_end (fparam : Option Nat) :
    MovesOn tagOf wanted start [] (some (.noEntry, fparam)) where
  found place later h := by simp at h
  missing _ := ⟨fparam, rfl⟩

theorem here (h : isWanted tagOf wanted child = true) :
    MovesOn tagOf wanted start (child :: behind) (some (.ok (), some start)) where
  found place later hplaces := by
    rw [List.findIdxs_cons, if_pos h] at hplaces
    rw [(List.cons.inj hplaces).1]
  missing hplaces := by
    rw [List.findIdxs_cons, if_pos h] at hplaces
    cases hplaces

theorem skip (h : ¬isWanted tagOf wanted child = true)
    (hmoves : MovesOn tagOf wanted (start + 1) behind result) :
    MovesOn tagOf wanted start (child :: behind) result where
  found place later hplaces := by
    rw [List.findIdxs_cons, if_neg h] at hplaces
    exact hmoves.found place later hplaces
  missing hplaces := by
    rw [List.findIdxs_cons, if_neg h] at hplaces
    exact hmoves.missing hplaces

end MovesOn

section Siblings

variable {place : Nat} {nextDie : Option Nat}
  {goOn : Option Nat → Option (DwRes Unit × Option Nat)}

theorem getElem?_of_drop {child : DwRes α} (h : children.drop place = child :: behind) :
    children[place]? = some child := by
  rw [← List.head?_drop, h, List.head?_cons]

theorem drop_behind {child : DwRes α} (h : children.drop place = child :: behind) :
    children.drop (place + 1) = behind := by
  rw [← List.drop_drop, h, List.drop_one, List.tail_cons]

theorem moveToSibling_last (h : children.drop (place + 1) = []) :
    moveToSibling children (some place) nextDie goOn = some (.noEntry, nextDie) := by
  have hnone : children[place + 1]? = none := by
    rw [← List.head?_drop, h, List.head?_nil]
  simp only [moveToSibling, dwarfSiblingof, hnone]

theorem moveToSibling_next {die : α} (h : children.drop (place + 1) = .ok die :: behind) :
    moveToSibling children (some place) nextDie goOn = goOn (some (place + 1)) := by
  simp only [moveToSibling, dwarfSiblingof, getElem?_of_drop h]

theorem moveToSibling_noEntry (h : children.drop (place + 1) = .noEntry :: behind) :
    moveToSibling children (some place) nextDie goOn = some (.noEntry, nextDie) := by
  simp only [moveToSibling, dwarfSiblingof, getElem?_of_drop h]

theorem moveToSibling_error (h : children.drop (place + 1) = .error :: behind) :
    moveToSibling children (some place) nextDie goOn = some (.error, nextDie) := by
  simp only [moveToSibling, dwarfSiblingof, getElem?_of_drop h]

omit [DecidableEq τ] in
theorem dwarfTag_at {die : α} (h : children.drop place = .ok die :: behind) :
    dwarfTag tagOf children (some place) = tagOf die := by
  simp only [dwarfTag, getElem?_of_drop h]

end Siblings

-- The passes run along the children behind the place, and there are enough of them.
theorem traverseSiblings_movesOn (hreads : ReadsChildren tagOf behind) {place : Nat}
    (hdrop : children.drop place = behind) (hsome : behind ≠ []) {passes : Nat}
    (hpasses : behind.length ≤ passes) (nextDie : Option Nat) :
    MovesOn tagOf wanted place behind
      (traverseSiblings tagOf wanted children passes (some place) nextDie) := by
  induction behind generalizing place passes nextDie with
  | nil => exact absurd rfl hsome
  | cons child rest ih =>
      rw [List.length_cons] at hpasses
      obtain ⟨passes, rfl⟩ : ∃ n, passes = n + 1 := ⟨passes - 1, by omega⟩
      obtain ⟨die, tag, rfl, htag⟩ := hreads child List.mem_cons_self
      have hrest : ReadsChildren tagOf rest :=
        fun other hmem => hreads other (List.mem_cons_of_mem _ hmem)
      have hnext := drop_behind hdrop
      unfold traverseSiblings
      rw [dwarfTag_at hdrop, htag]
      by_cases hwanted : tag = wanted
      · have hhere : isWanted tagOf wanted (.ok die) = true := by
          simp [isWanted, htag, hwanted]
        simp only [hwanted, if_true]
        exact .here hhere
      · have hskip : ¬isWanted tagOf wanted (.ok die) = true := by
          simp [isWanted, htag, hwanted]
        simp only [if_neg hwanted]
        cases rest with
        | nil =>
            rw [moveToSibling_last hnext]
            exact .skip hskip (.at_end nextDie)
        | cons sibling others =>
            obtain ⟨siblingDie, _, rfl, _⟩ := hrest sibling List.mem_cons_self
            rw [moveToSibling_next hnext]
            exact .skip hskip (ih hrest hnext (List.cons_ne_nil _ _) (by omega) _)

theorem getWantedChild_first (hreads : ReadsChildren tagOf children) :
    MovesOn tagOf wanted 0 children (getWantedChild tagOf wanted children none) := by
  cases children with
  | nil => exact .at_end none
  | cons child rest =>
      obtain ⟨die, _, rfl, _⟩ := hreads child List.mem_cons_self
      exact traverseSiblings_movesOn hreads rfl (List.cons_ne_nil _ _) (Nat.le_refl _) none

theorem getWantedChild_later (hreads : ReadsChildren tagOf children) (place : Nat) :
    MovesOn tagOf wanted (place + 1) (children.drop (place + 1))
      (getWantedChild tagOf wanted children (some place)) := by
  have hbehind : ReadsChildren tagOf (children.drop (place + 1)) :=
    fun child hmem => hreads child (List.mem_of_mem_drop hmem)
  cases hdrop : children.drop (place + 1) with
  | nil =>
      unfold getWantedChild
      simp only [moveToSibling_last hdrop]
      exact .at_end none
  | cons child rest =>
      rw [hdrop] at hbehind
      obtain ⟨die, _, rfl, _⟩ := hbehind child List.mem_cons_self
      have hlength := congrArg List.length hdrop
      rw [List.length_drop] at hlength
      unfold getWantedChild
      simp only [moveToSibling_next hdrop]
      exact traverseSiblings_movesOn hbehind hdrop (List.cons_ne_nil _ _) (by omega) _

-- Behind a wanted child stand the wanted children that come after it.
theorem findIdxs_behind {p : α → Bool} {start place : Nat} {later : List Nat} {list : List α}
    (h : list.findIdxs p start = place :: later) :
    start ≤ place ∧ (list.drop (place + 1 - start)).findIdxs p (place + 1) = later := by
  induction list generalizing start with
  | nil => cases h
  | cons x rest ih =>
      rw [List.findIdxs_cons] at h
      by_cases hx : p x = true
      · rw [if_pos hx] at h
        obtain ⟨rfl, rfl⟩ := List.cons.inj h
        refine ⟨Nat.le_refl _, ?_⟩
        rw [Nat.add_sub_cancel_left, List.drop_one, List.tail_cons]
      · rw [if_neg hx] at h
        obtain ⟨hle, hlater⟩ := ih h
        refine ⟨by omega, ?_⟩
        obtain ⟨k, hk⟩ : ∃ k, place + 1 - start = k + 1 := ⟨place - start, by omega⟩
        have hk' : place + 1 - (start + 1) = k := by omega
        rw [hk, List.drop_succ_cons]
        rw [hk'] at hlater
        exact hlater

-- By induction on the number of the call: it starts behind the places that are delivered.
theorem nthCall_movesOn (wanted : τ) (hreads : ReadsChildren tagOf children) (n : Nat)
    (hn : n ≤ (children.findIdxs (isWanted tagOf wanted)).length) :
    ∃ start, MovesOn tagOf wanted start (children.drop start)
        (nthCall (getWantedChild tagOf wanted children) n) ∧
      (children.drop start).findIdxs (isWanted tagOf wanted) start
        = (children.findIdxs (isWanted tagOf wanted)).drop n := by
  induction n with
  | zero => exact ⟨0, getWantedChild_first hreads, rfl⟩
  | succ n ih =>
      obtain ⟨start, hmoves, hleft⟩ := ih (Nat.le_of_succ_le hn)
      rw [List.drop_eq_getElem_cons (Nat.lt_of_succ_le hn)] at hleft
      obtain ⟨hle, hlater⟩ := findIdxs_behind hleft
      rw [List.drop_drop, Nat.add_sub_cancel' (Nat.le_succ_of_le hle)] at hlater
      refine ⟨_, ?_, hlater⟩
      unfold nthCall
      rw [hmoves.found _ _ hleft]
      exact getWantedChild_later hreads _

theorem getWantedChild_enumerates (hreads : ReadsChildren tagOf children) :
    Enumerates (getWantedChild tagOf wanted children)
      (children.findIdxs (isWanted tagOf wanted)) where
  each n place hplace := by
    obtain ⟨hlt, hat⟩ := List.getElem?_eq_some_iff.mp hplace
    obtain ⟨start, hmoves, hleft⟩ := nthCall_movesOn wanted hreads n hlt.le
    rw [List.drop_eq_getElem_cons hlt, hat] at hleft
    exact hmoves.found _ _ hleft
  last := by
    obtain ⟨start, hmoves, hleft⟩ := nthCall_movesOn wanted hreads _ (Nat.le_refl _)
    rw [List.drop_length] at hleft
    exact hmoves.missing hleft

end Iterator

def getFormalParams (subProgDie : Die) : Option Nat → Option (DwRes Unit × Option Nat) :=
  getWantedChild (fun die : Die => .ok die.attrs.tag) .DW_TAG_formal_parameter
    (subProgDie.children.map .ok)

def getDataMembersFrom (structDie : TypeDie) : Option Nat → Option (DwRes Unit × Option Nat) :=
  getWantedChild MemberDie.tag .DW_TAG_member structDie.children

section Members

variable {children behind rest : List (DwRes MemberDie)} {member : MemberDie}

-- The list of children that the printer goes on with, and the pointer of the iterator.
inductive SameMember (children : List (DwRes MemberDie)) :
    DwRes (MemberDie × List (DwRes MemberDie)) → Option (DwRes Unit × Option Nat) → Prop
  | found {member : MemberDie} {rest : List (DwRes MemberDie)} {place : Nat}
      (hdrop : children.drop place = .ok member :: rest) :
      SameMember children (.ok (member, rest)) (some (.ok (), some place))
  | missing (fparam : Option Nat) :
      SameMember children .noEntry (some (.noEntry, fparam))
  | failed (fparam : Option Nat) :
      SameMember children .error (some (.error, fparam))

theorem moveToSibling_same {place : Nat} (hbehind : children.drop (place + 1) = behind)
    (nextDie : Option Nat) {goOn : Option Nat → Option (DwRes Unit × Option Nat)}
    (hnext : ∀ die rest, behind = .ok die :: rest →
      SameMember children (getDataMembers behind) (goOn (some (place + 1)))) :
    SameMember children (getDataMembers behind)
      (moveToSibling children (some place) nextDie goOn) := by
  cases behind with
  | nil =>
      rw [moveToSibling_last hbehind]
      exact .missing nextDie
  | cons child others =>
      cases child with
      | ok die =>
          rw [moveToSibling_next hbehind]
          exact hnext die others rfl
      | noEntry =>
          rw [moveToSibling_noEntry hbehind]
          exact .missing nextDie
      | error =>
          rw [moveToSibling_error hbehind]
          exact .failed nextDie

theorem traverseSiblings_same {die : MemberDie} {place passes : Nat}
    (hdrop : children.drop place = .ok die :: rest) (hpasses : rest.length < passes)
    (nextDie : Option Nat) :
    SameMember children (getDataMembers (.ok die :: rest))
      (traverseSiblings MemberDie.tag .DW_TAG_member children passes (some place) nextDie) := by
  induction passes generalizing die rest place nextDie with
  | zero => exact absurd hpasses (Nat.not_lt_zero _)
  | succ passes ih =>
      unfold traverseSiblings getDataMembers
      rw [dwarfTag_at hdrop]
      cases htag : die.tag with
      | noEntry => exact .missing _
      | error => exact .failed _
      | ok tag =>
          by_cases hmember : tag = .DW_TAG_member
          · subst hmember
            exact .found hdrop
          · simp only [if_neg hmember]
            apply moveToSibling_same (drop_behind hdrop)
            rintro sibling others rfl
            rw [List.length_cons] at hpasses
            exact ih (drop_behind hdrop) (by omega) _

-- A call of the iterator goes on to the member that the printer's loop goes on to.
theorem getDataMembersFrom_same (structDie : TypeDie) (fparam : Option Nat) :
    SameMember structDie.children
      (getDataMembers (structDie.children.drop (fparam.elim 0 (· + 1))))
      (getDataMembersFrom structDie fparam) := by
  unfold getDataMembersFrom getWantedChild
  cases fparam with
  | none =>
      rw [Option.elim_none, List.drop_zero]
      cases hchildren : structDie.children with
      | nil => exact .missing none
      | cons child rest =>
          cases child with
          | ok die => exact traverseSiblings_same List.drop_zero (Nat.lt_succ_self _) none
          | noEntry => exact .missing none
          | error => exact .failed none
  | some place =>
      apply moveToSibling_same rfl
      intro die rest hdrop
      have hlength := congrArg List.length hdrop
      rw [List.length_drop, List.length_cons] at hlength
      exact hdrop ▸ traverseSiblings_same hdrop (by omega) _

end Members

section Delivered

def isFormalParam (die : Die) : Bool := die.attrs.tag = .DW_TAG_formal_parameter

def isDataMember (child : DwRes MemberDie) : Bool := (dataMember child).isSome

theorem isWanted_member :
    isWanted MemberDie.tag .DW_TAG_member = isDataMember := by
  funext child
  cases child with
  | ok die =>
      by_cases h : die.tag = .ok .DW_TAG_member <;> simp [isWanted, isDataMember, dataMember, h]
  | noEntry => rfl
  | error => rfl

-- The parameters among the children of a subprogram, and the members among those of a
-- structure type.
theorem child_iterators_enumerate (subProgDie : Die) {structDie : TypeDie}
    (hreads : ∀ child ∈ structDie.children, ReadableChild child) :
    Enumerates (getFormalParams subProgDie) (subProgDie.children.findIdxs isFormalParam) ∧
      Enumerates (getDataMembersFrom structDie) (structDie.children.findIdxs isDataMember) := by
  constructor
  · have hparams : (subProgDie.children.map DwRes.ok).findIdxs
        (isWanted (fun die : Die => .ok die.attrs.tag) .DW_TAG_formal_parameter)
          = subProgDie.children.findIdxs isFormalParam := by
      rw [List.findIdxs_map]
      congr 1
      funext die
      simp [isWanted, isFormalParam]
    rw [← hparams]
    apply getWantedChild_enumerates
    intro child hmem
    obtain ⟨die, _, rfl⟩ := List.mem_map.mp hmem
    exact ⟨die, _, rfl, rfl⟩
  · rw [← isWanted_member]
    exact getWantedChild_enumerates hreads

-- A variable stands between the parameters, and a nested type in front of the members.
def twoParams : Die :=
  .mk { tag := .DW_TAG_subprogram, lowpc := .noEntry, highpc := .noEntry }
    ([.DW_TAG_formal_parameter, .DW_TAG_variable, .DW_TAG_formal_parameter].map fun tag =>
      .mk { tag, lowpc := .noEntry, highpc := .noEntry } [])

def nestedBefore : TypeDie :=
  let member := wordMember (.ok "x".toList) 0 0x40
  structOf [{ member with tag := .ok .DW_TAG_structure_type }, member, member]

theorem two_params_two_members :
    Enumerates (getFormalParams twoParams) [0, 2] ∧
      Enumerates (getDataMembersFrom nestedBefore) [1, 2] :=
  child_iterators_enumerate twoParams (by simp [nestedBefore, structOf, wordMember, ReadableChild])

end Delivered

end VDebugger
