import VDebugger.DwarfInfo.SubProg
import VDebugger.Var

namespace VDebugger

open Machine

variable {undef name : CString} {pc : UWORD} {root die child : Die} {attrs : DieAttrs}
  {dies rest : List Die} {path more : List Nat}

def Die.isVariable (die : Die) : Bool :=
  match die.attrs.tag with
  | .DW_TAG_variable | .DW_TAG_formal_parameter => true
  | _ => false

def Die.isBlock (die : Die) : Bool :=
  match die.attrs.tag with
  | .DW_TAG_lexical_block | .DW_TAG_subprogram | .DW_TAG_inlined_subroutine => true
  | _ => false

theorem Die.not_isBlock_of_isVariable (h : die.isVariable = true) : ¬die.isBlock = true := by
  unfold Die.isVariable at h
  unfold Die.isBlock
  split at h <;> simp_all

-- The walk goes into the blocks whose range has the pc in it or ends there.
def Enters (pc : UWORD) (die : Die) : Prop :=
  die.isBlock = true ∧ ∃ low high, getLowHighPcFromDie die = .ok (low, high) ∧ low ≤ pc ∧ pc ≤ high

abbrev ComesTo (pc : UWORD) (root : Die) (path : List Nat) (die : Die) : Prop :=
  PathThrough Die.children (Enters pc) root path die

-- The name of the DIE compares as equal.
def Named (undef name : CString) (die : Die) : Prop :=
  die.isVariable = true ∧
    (die.attrs.name = .ok name ∨ die.attrs.name = .noEntry ∧ name = undef)

def Rangeless (die : Die) : Prop :=
  die.isBlock = true ∧ getLowHighPcFromDie die = .noEntry

-- A call of the library that the walk makes on the DIE gives DW_DLV_ERROR.
def Unread (die : Die) : Prop :=
  die.isVariable = true ∧ die.attrs.name = .error ∨
    die.isBlock = true ∧ getLowHighPcFromDie die = .error

-- What comes behind a block without a range, or behind a block that comes to one through
-- first children alone.
abbrev HiddenBy : List Nat → List Nat → Prop := Elder fun onward => ∀ i ∈ onward, i = 0

def Unhidden (pc : UWORD) (root : Die) (path : List Nat) : Prop :=
  ∀ other die, ComesTo pc root other die → Rangeless die → ¬HiddenBy other path

def LeadsToRangeless (pc : UWORD) (root : Die) : Prop :=
  ∃ path die, (∀ i ∈ path, i = 0) ∧ ComesTo pc root path die ∧ Rangeless die

-- A place where the walk would end.
structure StopPlace (undef name : CString) (pc : UWORD) (root : Die) (path : List Nat) (die : Die) :
    Prop where
  reaches : ComesTo pc root path die
  stops : Named undef name die ∨ Unread die
  unhidden : Unhidden pc root path

-- The one where it does end.
structure EndPlace (undef name : CString) (pc : UWORD) (root : Die) (path : List Nat)
    (die : Die) : Prop extends StopPlace undef name pc root path die where
  first : ∀ other below, StopPlace undef name pc root other below → ¬Before other path

inductive WalkEnds (undef name : CString) (pc : UWORD) (root : Die) :
    DwRes Unit × Option Die → Prop
  | found {path : List Nat} {die : Die} (h : EndPlace undef name pc root path die)
      (hnamed : Named undef name die) : WalkEnds undef name pc root (.ok (), some die)
  | failed {path : List Nat} {die : Die} (h : EndPlace undef name pc root path die)
      (hunread : Unread die) : WalkEnds undef name pc root (.error, none)
  | nothing {res : DwRes Unit} (hres : res ≠ .error)
      (hnone : ∀ path die, ¬StopPlace undef name pc root path die) : WalkEnds undef name pc root (res, none)

section Children

variable {i : Nat}

theorem comesTo_head_iff (henters : Enters pc (.mk attrs dies)) :
    ComesTo pc (.mk attrs (child :: rest)) (0 :: path) die ↔ ComesTo pc child path die := by
  rw [ComesTo, PathThrough.cons_iff]
  constructor
  · rintro ⟨-, below, hchild, hrest⟩
    cases hchild
    exact hrest
  · exact fun h => ⟨henters, child, rfl, h⟩

theorem comesTo_tail_iff :
    ComesTo pc (.mk attrs (child :: rest)) ((i + 1) :: path) die ↔
      ComesTo pc (.mk attrs rest) (i :: path) die := by
  rw [ComesTo, PathThrough.cons_iff, ComesTo, PathThrough.cons_iff]
  exact Iff.rfl

theorem unhidden_head_iff (henters : Enters pc (.mk attrs dies)) :
    Unhidden pc (.mk attrs (child :: rest)) (0 :: path) ↔ Unhidden pc child path := by
  constructor
  · intro h other below hother hrangeless hhidden
    exact h (0 :: other) below ((comesTo_head_iff henters).mpr hother) hrangeless (.along 0 hhidden)
  · intro h other below hother hrangeless hhidden
    cases hhidden with
    | apart hlt => exact absurd hlt (Nat.not_lt_zero _)
    | along _ hhidden => exact h _ below ((comesTo_head_iff henters).mp hother) hrangeless hhidden

theorem unhidden_tail_iff (henters : Enters pc (.mk attrs dies)) :
    Unhidden pc (.mk attrs (child :: rest)) ((i + 1) :: path) ↔
      ¬LeadsToRangeless pc child ∧ Unhidden pc (.mk attrs rest) (i :: path) := by
  constructor
  · intro h
    refine ⟨?_, fun other below hother hrangeless hhidden => ?_⟩
    · rintro ⟨other, below, hzeros, hother, hrangeless⟩
      exact h (0 :: other) below ((comesTo_head_iff henters).mpr hother) hrangeless
        (.apart (Nat.succ_pos i) hzeros)
    · cases hhidden with
      | apart hlt hzeros =>
          exact h _ below (comesTo_tail_iff.mpr hother) hrangeless
            (.apart (Nat.succ_lt_succ hlt) hzeros)
      | along _ hhidden =>
          exact h _ below (comesTo_tail_iff.mpr hother) hrangeless (.along _ hhidden)
  · rintro ⟨hleads, h⟩ other below hother hrangeless hhidden
    obtain ⟨j, other, rfl⟩ : ∃ j tail, other = j :: tail := by
      cases hhidden <;> exact ⟨_, _, rfl⟩
    cases j with
    | zero =>
        rcases Elder.cons_iff.mp hhidden with ⟨-, hzeros⟩ | ⟨hzero, -⟩
        · exact hleads ⟨other, below, hzeros, (comesTo_head_iff henters).mp hother, hrangeless⟩
        · exact absurd hzero (Nat.succ_ne_zero i).symm
    | succ j =>
        refine h _ below (comesTo_tail_iff.mp hother) hrangeless ?_
        rcases Elder.cons_iff.mp hhidden with ⟨hlt, hzeros⟩ | ⟨heq, hhidden⟩
        · exact Elder.cons_iff.mpr (.inl ⟨Nat.lt_of_succ_lt_succ hlt, hzeros⟩)
        · exact Elder.cons_iff.mpr (.inr ⟨Nat.succ.inj heq, hhidden⟩)

end Children

namespace StopPlace

theorem head_iff (henters : Enters pc (.mk attrs dies)) :
    StopPlace undef name pc (.mk attrs (child :: rest)) (0 :: path) die ↔
      StopPlace undef name pc child path die := by
  constructor
  · rintro ⟨hreaches, hstops, hunhidden⟩
    exact ⟨(comesTo_head_iff henters).mp hreaches, hstops, (unhidden_head_iff henters).mp hunhidden⟩
  · rintro ⟨hreaches, hstops, hunhidden⟩
    exact ⟨(comesTo_head_iff henters).mpr hreaches, hstops,
      (unhidden_head_iff henters).mpr hunhidden⟩

theorem tail_iff {i : Nat} (henters : Enters pc (.mk attrs dies)) :
    StopPlace undef name pc (.mk attrs (child :: rest)) ((i + 1) :: path) die ↔
      ¬LeadsToRangeless pc child ∧ StopPlace undef name pc (.mk attrs rest) (i :: path) die := by
  constructor
  · rintro ⟨hreaches, hstops, hunhidden⟩
    obtain ⟨hleads, hunhidden⟩ := (unhidden_tail_iff henters).mp hunhidden
    exact ⟨hleads, comesTo_tail_iff.mp hreaches, hstops, hunhidden⟩
  · rintro ⟨hleads, hreaches, hstops, hunhidden⟩
    exact ⟨comesTo_tail_iff.mpr hreaches, hstops,
      (unhidden_tail_iff henters).mpr ⟨hleads, hunhidden⟩⟩

-- A block that the walk goes into is no stop itself.
theorem path_ne_nil (henters : Enters pc (.mk attrs dies))
    (h : StopPlace undef name pc (.mk attrs rest) path die) : path ≠ [] := by
  rintro rfl
  obtain ⟨hblock, low, high, hrange, -, -⟩ := henters
  obtain rfl := PathThrough.nil_iff.mp h.reaches
  rcases h.stops with ⟨hvariable, -⟩ | ⟨hvariable, -⟩ | ⟨-, herror⟩
  · exact Die.not_isBlock_of_isVariable hvariable hblock
  · exact Die.not_isBlock_of_isVariable hvariable hblock
  · cases hrange.symm.trans herror

end StopPlace

namespace EndPlace

theorem head (henters : Enters pc (.mk attrs dies)) (h : EndPlace undef name pc child path die)
    (rest : List Die) : EndPlace undef name pc (.mk attrs (child :: rest)) (0 :: path) die where
  toStopPlace := (StopPlace.head_iff henters).mpr h.toStopPlace
  first other below hother hbefore := by
    cases hbefore with
    | apart hlt => exact absurd hlt (Nat.not_lt_zero _)
    | along _ hbefore => exact h.first _ below ((StopPlace.head_iff henters).mp hother) hbefore

theorem tail {i : Nat} (henters : Enters pc (.mk attrs dies))
    (hnone : ∀ path die, ¬StopPlace undef name pc child path die)
    (hleads : ¬LeadsToRangeless pc child)
    (h : EndPlace undef name pc (.mk attrs rest) (i :: path) die) :
    EndPlace undef name pc (.mk attrs (child :: rest)) ((i + 1) :: path) die where
  toStopPlace := (StopPlace.tail_iff henters).mpr ⟨hleads, h.toStopPlace⟩
  first other below hother hbefore := by
    obtain ⟨j, other, rfl⟩ := List.exists_cons_of_ne_nil (hother.path_ne_nil henters)
    cases j with
    | zero => exact hnone other below ((StopPlace.head_iff henters).mp hother)
    | succ j =>
        refine h.first (j :: other) below ((StopPlace.tail_iff henters).mp hother).2 ?_
        rcases Elder.cons_iff.mp hbefore with ⟨hlt, -⟩ | ⟨heq, hbefore⟩
        · exact .apart (Nat.lt_of_succ_lt_succ hlt) trivial
        · exact Elder.cons_iff.mpr (.inr ⟨Nat.succ.inj heq, hbefore⟩)

end EndPlace

namespace WalkEnds

variable {res : DwRes Unit} {result : DwRes Unit × Option Die}

-- The first child ends the walk, ...
theorem head (henters : Enters pc (.mk attrs dies)) (h : WalkEnds undef name pc child result)
    (hresult : result.1 = .error ∨ result.2 ≠ none) (rest : List Die) :
    WalkEnds undef name pc (.mk attrs (child :: rest)) result := by
  cases h with
  | found h hnamed => exact .found (h.head henters rest) hnamed
  | failed h hunread => exact .failed (h.head henters rest) hunread
  | nothing hres hnone =>
      rcases hresult with herror | hsome
      · exact absurd herror hres
      · exact absurd rfl hsome

-- ... it is passed, ...
theorem tail (henters : Enters pc (.mk attrs dies))
    (hnone : ∀ path die, ¬StopPlace undef name pc child path die)
    (hleads : ¬LeadsToRangeless pc child)
    (h : WalkEnds undef name pc (.mk attrs rest) result) :
    WalkEnds undef name pc (.mk attrs (child :: rest)) result := by
  have hplace {path : List Nat} {die : Die} (h : EndPlace undef name pc (.mk attrs rest) path die) :
      ∃ path, EndPlace undef name pc (.mk attrs (child :: rest)) path die := by
    obtain ⟨i, path, rfl⟩ := List.exists_cons_of_ne_nil (h.path_ne_nil henters)
    exact ⟨(i + 1) :: path, h.tail henters hnone hleads⟩
  cases h with
  | found h hnamed => exact .found (hplace h).choose_spec hnamed
  | failed h hunread => exact .failed (hplace h).choose_spec hunread
  | nothing hres hrest =>
      refine .nothing hres fun path die hstop => ?_
      obtain ⟨i, path, rfl⟩ := List.exists_cons_of_ne_nil (hstop.path_ne_nil henters)
      cases i with
      | zero => exact hnone path die ((StopPlace.head_iff henters).mp hstop)
      | succ i => exact hrest _ die ((StopPlace.tail_iff henters).mp hstop).2

-- ... or it hides all that come behind it.
theorem cut (henters : Enters pc (.mk attrs dies))
    (hnone : ∀ path die, ¬StopPlace undef name pc child path die)
    (hleads : LeadsToRangeless pc child) (hres : res ≠ .error) (rest : List Die) :
    WalkEnds undef name pc (.mk attrs (child :: rest)) (res, none) := by
  refine .nothing hres fun path die hstop => ?_
  obtain ⟨i, path, rfl⟩ := List.exists_cons_of_ne_nil (hstop.path_ne_nil henters)
  cases i with
  | zero => exact hnone path die ((StopPlace.head_iff henters).mp hstop)
  | succ i => exact ((StopPlace.tail_iff henters).mp hstop).1 hleads

end WalkEnds

-- How the walk of a DIE ends. With DW_DLV_NO_ENTRY it ends where first children alone lead to
-- a block without a range.
structure WalkResult (undef name : CString) (pc : UWORD) (root : Die)
    (result : DwRes Unit × Option Die) : Prop where
  ends : WalkEnds undef name pc root result
  noEntry : result.1 = .noEntry ↔ LeadsToRangeless pc root

section Outside

theorem comesTo_of_not_enters (hout : ¬Enters pc root) :
    ComesTo pc root path die ↔ path = [] ∧ die = root := by
  constructor
  · intro h
    cases h with
    | here => exact ⟨rfl, rfl⟩
    | down henters => exact absurd henters hout
  · rintro ⟨rfl, rfl⟩
    exact .here die

theorem leadsToRangeless_of_not_enters (hout : ¬Enters pc root) :
    LeadsToRangeless pc root ↔ Rangeless root := by
  constructor
  · rintro ⟨path, die, -, hreaches, hrangeless⟩
    obtain ⟨-, rfl⟩ := (comesTo_of_not_enters hout).mp hreaches
    exact hrangeless
  · exact fun h => ⟨[], root, fun _ hi => absurd hi List.not_mem_nil, .here root, h⟩

theorem endPlace_here (h : Named undef name root ∨ Unread root) :
    EndPlace undef name pc root [] root where
  reaches := .here root
  stops := h
  unhidden _ _ _ _ hhidden := Elder.not_nil_right hhidden
  first _ _ _ hbefore := Elder.not_nil_right hbefore

theorem no_stopPlace (hout : ¬Enters pc root) (hnamed : ¬Named undef name root)
    (hunread : ¬Unread root) (path : List Nat) (die : Die) :
    ¬StopPlace undef name pc root path die := by
  rintro ⟨hreaches, hstops, -⟩
  obtain ⟨-, rfl⟩ := (comesTo_of_not_enters hout).mp hreaches
  exact hstops.elim hnamed hunread

theorem Named.not_rangeless (h : Named undef name die) : ¬Rangeless die :=
  fun hrangeless => Die.not_isBlock_of_isVariable h.1 hrangeless.1

theorem Named.not_enters (h : Named undef name die) : ¬Enters pc die :=
  fun henters => Die.not_isBlock_of_isVariable h.1 henters.1

theorem Unread.not_rangeless (h : Unread die) : ¬Rangeless die := by
  rintro ⟨hblock, hrange⟩
  rcases h with ⟨hvariable, -⟩ | ⟨-, herror⟩
  · exact Die.not_isBlock_of_isVariable hvariable hblock
  · cases hrange.symm.trans herror

theorem Unread.not_enters (h : Unread die) : ¬Enters pc die := by
  rintro ⟨hblock, low, high, hrange, -, -⟩
  rcases h with ⟨hvariable, -⟩ | ⟨-, herror⟩
  · exact Die.not_isBlock_of_isVariable hvariable hblock
  · cases hrange.symm.trans herror

theorem Unread.not_named (h : Unread die) : ¬Named undef name die := by
  rintro ⟨hvariable, hname⟩
  rcases h with ⟨-, herror⟩ | ⟨hblock, -⟩
  · rcases hname with hok | ⟨hnone, -⟩
    · cases herror.symm.trans hok
    · cases herror.symm.trans hnone
  · exact Die.not_isBlock_of_isVariable hvariable hblock

theorem Rangeless.not_enters (h : Rangeless die) : ¬Enters pc die := by
  rintro ⟨-, low, high, hrange, -, -⟩
  cases h.2.symm.trans hrange

namespace WalkResult

theorem named (h : Named undef name root) : WalkResult undef name pc root (.ok (), some root) where
  ends := .found (endPlace_here (.inl h)) h
  noEntry := by
    rw [leadsToRangeless_of_not_enters h.not_enters]
    exact iff_of_false (by simp) h.not_rangeless

theorem unread (h : Unread root) : WalkResult undef name pc root (.error, none) where
  ends := .failed (endPlace_here (.inr h)) h
  noEntry := by
    rw [leadsToRangeless_of_not_enters h.not_enters]
    exact iff_of_false (by simp) h.not_rangeless

theorem rangeless (h : Rangeless root) : WalkResult undef name pc root (.noEntry, none) where
  ends := .nothing (by simp) (no_stopPlace h.not_enters (fun hnamed => hnamed.not_rangeless h)
    fun hunread => hunread.not_rangeless h)
  noEntry := by
    rw [leadsToRangeless_of_not_enters h.not_enters]
    exact iff_of_true rfl h

theorem passed (hout : ¬Enters pc root) (hnamed : ¬Named undef name root)
    (hunread : ¬Unread root) (hrangeless : ¬Rangeless root) :
    WalkResult undef name pc root (.ok (), none) where
  ends := .nothing (by simp) (no_stopPlace hout hnamed hunread)
  noEntry := by
    rw [leadsToRangeless_of_not_enters hout]
    exact iff_of_false (by simp) hrangeless

end WalkResult

end Outside

section Loops

theorem leadsToRangeless_nil (henters : Enters pc (.mk attrs dies)) :
    ¬LeadsToRangeless pc (.mk attrs []) := by
  rintro ⟨path, die, -, hreaches, hrangeless⟩
  cases hreaches with
  | here => exact hrangeless.not_enters henters
  | down _ hchild => cases hchild

theorem leadsToRangeless_cons (henters : Enters pc (.mk attrs dies)) :
    LeadsToRangeless pc (.mk attrs (child :: rest)) ↔ LeadsToRangeless pc child := by
  constructor
  · rintro ⟨path, die, hzeros, hreaches, hrangeless⟩
    cases path with
    | nil =>
        obtain rfl := PathThrough.nil_iff.mp hreaches
        exact absurd henters hrangeless.not_enters
    | cons i path =>
        obtain rfl : i = 0 := hzeros i List.mem_cons_self
        exact ⟨path, die, fun j hj => hzeros j (List.mem_cons_of_mem _ hj),
          (comesTo_head_iff henters).mp hreaches, hrangeless⟩
  · rintro ⟨path, die, hzeros, hreaches, hrangeless⟩
    refine ⟨0 :: path, die, fun i hi => ?_, (comesTo_head_iff henters).mpr hreaches, hrangeless⟩
    rcases List.mem_cons.mp hi with rfl | hi
    · rfl
    · exact hzeros i hi

theorem no_stopPlace_nil (henters : Enters pc (.mk attrs dies)) (path : List Nat) (die : Die) :
    ¬StopPlace undef name pc (.mk attrs []) path die := by
  intro h
  obtain ⟨i, path, rfl⟩ := List.exists_cons_of_ne_nil (h.path_ne_nil henters)
  obtain ⟨-, below, hchild, -⟩ := PathThrough.cons_iff.mp h.reaches
  cases hchild

end Loops

section Passes

-- The name that the variable is compared with.
theorem getLocalVarFromName_compared (undef name : CString) (pc : UWORD)
    (hvariable : (Die.mk attrs dies).isVariable = true) :
    (attrs.name = .error → getLocalVarFromName undef (some name) pc (.mk attrs dies) =
      some (.error, none)) ∧
    (attrs.name = .noEntry → getLocalVarFromName undef (some name) pc (.mk attrs dies) =
      some (.ok (), if name = undef then some (.mk attrs dies) else none)) ∧
    ∀ dieName, attrs.name = .ok dieName →
      getLocalVarFromName undef (some name) pc (.mk attrs dies) =
        some (.ok (), if name = dieName then some (.mk attrs dies) else none) := by
  unfold Die.isVariable Die.attrs at hvariable
  unfold getLocalVarFromName
  refine ⟨fun hname => ?_, fun hname => ?_, fun dieName hname => ?_⟩
  all_goals
    rw [hname]
    cases htag : attrs.tag <;> simp only [htag, Bool.false_eq_true] at hvariable
    all_goals rfl

theorem getLocalVarFromName_variable (hvariable : (Die.mk attrs dies).isVariable = true) :
    ∃ result, getLocalVarFromName undef (some name) pc (.mk attrs dies) = some result ∧
      WalkResult undef name pc (.mk attrs dies) result := by
  have hblock := Die.not_isBlock_of_isVariable hvariable
  have hother (hnamed : ¬Named undef name (.mk attrs dies)) (hname : attrs.name ≠ .error) :
      WalkResult undef name pc (.mk attrs dies) (.ok (), none) := by
    refine .passed (fun henters => hblock henters.1) hnamed ?_ fun hrangeless => hblock hrangeless.1
    rintro (⟨-, herror⟩ | ⟨h, -⟩)
    · exact hname herror
    · exact hblock h
  obtain ⟨hunread, hmissing, hread⟩ := getLocalVarFromName_compared undef name pc hvariable
  cases hname : attrs.name with
  | error => exact ⟨_, hunread hname, .unread (.inl ⟨hvariable, hname⟩)⟩
  | noEntry =>
      refine ⟨_, hmissing hname, ?_⟩
      split_ifs with hundef
      · exact .named ⟨hvariable, .inr ⟨hname, hundef⟩⟩
      · refine hother ?_ (by simp [hname])
        rintro ⟨-, hok | ⟨-, h⟩⟩
        · cases hname.symm.trans hok
        · exact hundef h
  | ok dieName =>
      refine ⟨_, hread dieName hname, ?_⟩
      split_ifs with hsame
      · subst hsame
        exact .named ⟨hvariable, .inl hname⟩
      · refine hother ?_ (by simp [hname])
        rintro ⟨-, hok | ⟨hnone, -⟩⟩
        · exact hsame (DwRes.ok.inj (hok.symm.trans hname))
        · cases hname.symm.trans hnone

theorem getLocalVarFromName_block (hblock : (Die.mk attrs dies).isBlock = true) :
    getLocalVarFromName undef (some name) pc (.mk attrs dies) =
      match getLowHighPcFromDie (.mk attrs dies) with
      | .noEntry => some (.noEntry, none)
      | .error => some (.error, none)
      | .ok (low, high) =>
          if low > pc || high < pc then some (.ok (), none)
          else localVarChildren undef (some name) pc dies := by
  unfold Die.isBlock Die.attrs at hblock
  unfold getLocalVarFromName
  cases htag : attrs.tag <;> simp only [htag, Bool.false_eq_true] at hblock
  all_goals rcases getLowHighPcFromDie (.mk attrs dies) with ⟨low, high⟩ | _ | _ <;> rfl

theorem getLocalVarFromName_enters (henters : Enters pc (.mk attrs dies)) :
    getLocalVarFromName undef (some name) pc (.mk attrs dies) =
      localVarChildren undef (some name) pc dies := by
  obtain ⟨hblock, low, high, hrange, hlow, hhigh⟩ := henters
  have hinside : ¬(decide (low > pc) || decide (high < pc)) = true := by
    simp only [Bool.or_eq_true, decide_eq_true_eq]
    bv_omega
  rw [getLocalVarFromName_block hblock, hrange]
  exact if_neg hinside

theorem getLocalVarFromName_outside (hblock : (Die.mk attrs dies).isBlock = true)
    (hout : ¬Enters pc (.mk attrs dies)) :
    ∃ result, getLocalVarFromName undef (some name) pc (.mk attrs dies) = some result ∧
      WalkResult undef name pc (.mk attrs dies) result := by
  have hvariable : ¬(Die.mk attrs dies).isVariable = true :=
    fun h => Die.not_isBlock_of_isVariable h hblock
  rw [getLocalVarFromName_block hblock]
  rcases hrange : getLowHighPcFromDie (.mk attrs dies) with ⟨low, high⟩ | _ | _
  · have houtside : (decide (low > pc) || decide (high < pc)) = true := by
      by_contra hinside
      simp only [Bool.or_eq_true, decide_eq_true_eq] at hinside
      exact hout ⟨hblock, low, high, hrange, by bv_omega, by bv_omega⟩
    refine ⟨_, if_pos houtside, .passed hout (fun h => hvariable h.1) ?_ fun h => ?_⟩
    · rintro (⟨h, -⟩ | ⟨-, herror⟩)
      · exact hvariable h
      · cases hrange.symm.trans herror
    · cases hrange.symm.trans h.2
  · exact ⟨_, rfl, .rangeless ⟨hblock, hrange⟩⟩
  · exact ⟨_, rfl, .unread (.inr ⟨hblock, hrange⟩)⟩

theorem getLocalVarFromName_other (hvariable : ¬(Die.mk attrs dies).isVariable = true)
    (hblock : ¬(Die.mk attrs dies).isBlock = true) :
    ∃ result, getLocalVarFromName undef (some name) pc (.mk attrs dies) = some result ∧
      WalkResult undef name pc (.mk attrs dies) result := by
  have heq : getLocalVarFromName undef (some name) pc (.mk attrs dies) = some (.ok (), none) := by
    unfold Die.isVariable Die.attrs at hvariable
    unfold Die.isBlock Die.attrs at hblock
    unfold getLocalVarFromName
    cases htag : attrs.tag <;> simp_all
  refine ⟨_, heq, .passed (fun h => hblock h.1) (fun h => hvariable h.1) ?_ fun h => hblock h.1⟩
  rintro (⟨h, -⟩ | ⟨h, -⟩)
  · exact hvariable h
  · exact hblock h

end Passes

mutual

theorem getLocalVarFromName_walk (undef name : CString) (pc : UWORD) (die : Die) :
    ∃ result, getLocalVarFromName undef (some name) pc die = some result ∧
      WalkResult undef name pc die result := by
  obtain ⟨attrs, children⟩ := die
  by_cases hvariable : (Die.mk attrs children).isVariable = true
  · exact getLocalVarFromName_variable hvariable
  by_cases hblock : (Die.mk attrs children).isBlock = true
  · by_cases henters : Enters pc (.mk attrs children)
    · rw [getLocalVarFromName_enters henters]
      exact localVarChildren_walk undef name pc attrs children henters
    · exact getLocalVarFromName_outside hblock henters
  · exact getLocalVarFromName_other hvariable hblock

theorem localVarChildren_walk (undef name : CString) (pc : UWORD) (attrs : DieAttrs)
    (dies : List Die) (henters : Enters pc (.mk attrs dies)) :
    ∃ result, localVarChildren undef (some name) pc dies = some result ∧
      WalkResult undef name pc (.mk attrs dies) result := by
  match dies with
  | [] =>
      unfold localVarChildren
      exact ⟨_, rfl, .nothing (by simp) (no_stopPlace_nil henters),
        iff_of_false (by simp) (leadsToRangeless_nil henters)⟩
  | child :: siblings =>
      obtain ⟨result, hchild, hwalk⟩ := getLocalVarFromName_walk undef name pc child
      obtain ⟨hends, hnoEntry⟩ := hwalk
      have hbelow : LeadsToRangeless pc (.mk attrs (child :: siblings)) ↔ LeadsToRangeless pc child :=
        leadsToRangeless_cons henters
      rw [← hbelow] at hnoEntry
      unfold localVarChildren
      rw [hchild]
      cases hends with
      | found h hnamed =>
          exact ⟨_, rfl, .head henters (.found h hnamed) (.inr (by simp)) siblings, hnoEntry⟩
      | failed h hunread =>
          exact ⟨_, rfl, .head henters (.failed h hunread) (.inl rfl) siblings, hnoEntry⟩
      | @nothing res hres hnone =>
          cases res with
          | error => exact absurd rfl hres
          | noEntry =>
              have hleads := hbelow.mp (hnoEntry.mp rfl)
              exact ⟨_, rfl, .cut henters hnone hleads hres siblings, hnoEntry⟩
          | ok =>
              have hpassed : ¬LeadsToRangeless pc (.mk attrs (child :: siblings)) :=
                fun h => by cases hnoEntry.mpr h
              have hleads := mt hbelow.mpr hpassed
              obtain ⟨result, hrest, hends, hres⟩ :=
                localVarSiblings_walk undef name pc attrs siblings henters
              exact ⟨result, hrest, .tail henters hnone hleads hends, iff_of_false hres hpassed⟩

theorem localVarSiblings_walk (undef name : CString) (pc : UWORD) (attrs : DieAttrs)
    (dies : List Die) (henters : Enters pc (.mk attrs dies)) :
    ∃ result, localVarSiblings undef (some name) pc dies = some result ∧
      WalkEnds undef name pc (.mk attrs dies) result ∧ result.1 ≠ .noEntry := by
  match dies with
  | [] =>
      unfold localVarSiblings
      exact ⟨_, rfl, .nothing (by simp) (no_stopPlace_nil henters), by simp⟩
  | die :: siblings =>
      obtain ⟨result, hdie, hends, hnoEntry⟩ := getLocalVarFromName_walk undef name pc die
      unfold localVarSiblings
      rw [hdie]
      cases hends with
      | found h hnamed =>
          exact ⟨_, rfl, .head henters (.found h hnamed) (.inr (by simp)) siblings, by simp⟩
      | failed h hunread =>
          exact ⟨_, rfl, .head henters (.failed h hunread) (.inl rfl) siblings, by simp⟩
      | @nothing res hres hnone =>
          cases res with
          | error => exact absurd rfl hres
          | noEntry =>
              exact ⟨_, rfl, .cut henters hnone (hnoEntry.mp rfl) (by simp) siblings, by simp⟩
          | ok =>
              have hleads : ¬LeadsToRangeless pc die := fun h => by cases hnoEntry.mpr h
              obtain ⟨result, hrest, hends, hres⟩ :=
                localVarSiblings_walk undef name pc attrs siblings henters
              exact ⟨result, hrest, .tail henters hnone hleads hends, hres⟩

end

end VDebugger
