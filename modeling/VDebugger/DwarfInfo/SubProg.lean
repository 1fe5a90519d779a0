import VDebugger.DwarfInfo
import VDebugger.Machine.Paths
import Mathlib.Order.WellFounded

namespace VDebugger

open Machine

variable {addrOffset : WORD} {die cu : Die} {attrs : DieAttrs} {dies rest : List Die}
  {path more : List Nat} {found : Option Die}

def Die.children : Die → List Die
  | .mk _ children => children

-- The DIE that a path of child numbers leads to.
abbrev Die.at (die : Die) (path : List Nat) : Option Die := nodeAt Die.children die path

theorem Die.sizeOf_child (die : Die) : ∀ child ∈ die.children, sizeOf child < sizeOf die := by
  obtain ⟨attrs, children⟩ := die
  intro child hchild
  have hmem : sizeOf child < sizeOf children := List.sizeOf_lt_of_mem hchild
  rw [Die.mk.sizeOf_spec]
  omega

-- No call of the library on a DIE of the tree gives DW_DLV_ERROR.
def Die.Readable (die : Die) : Prop :=
  ∀ path below, die.at path = some below →
    below.attrs.lowpc ≠ .error ∧ below.attrs.highpc ≠ .error

-- Whether the DIE is that of a function with the address between its low and high pc.
def Die.isSubProgOf (addrOffset : WORD) (die : Die) : Prop :=
  die.attrs.tag = .DW_TAG_subprogram ∧ ∃ low high, getLowHighPcFromDie die = .ok (low, high) ∧
    low ≤ addrOffset ∧ addrOffset < high

-- A function strictly below the DIE covers the address.
def Covers (addrOffset : WORD) (die : Die) (path : List Nat) : Prop :=
  path ≠ [] ∧ ∃ below, die.at path = some below ∧ below.isSubProgOf addrOffset

structure InnermostAt (addrOffset : WORD) (die : Die) (path : List Nat) : Prop where
  covers : Covers addrOffset die path
  innermost : ∀ other, Covers addrOffset die other → other <+: path

-- Where the walk comes: in each second step down it takes the first child.
inductive Visited : List Nat → Prop
  | child (i : Nat) : Visited [i]
  | deeper (i : Nat) {path : List Nat} (h : Visited path) : Visited (i :: 0 :: path)

theorem dieContains_iff {inner : DieAttrs} (addrOffset : WORD) (dies : List Die)
    (hread : inner.lowpc ≠ .error ∧ inner.highpc ≠ .error) :
    dieContainsAddrOffset addrOffset (.mk inner dies) ≠ .error ∧
      ((dieContainsAddrOffset addrOffset (.mk inner dies) = .ok true &&
        inner.tag = .DW_TAG_subprogram) = true ↔
          (Die.mk inner dies).isSubProgOf addrOffset) := by
  unfold dieContainsAddrOffset Die.isSubProgOf getLowHighPcFromDie Die.attrs
  cases hl : inner.lowpc with
  | noEntry => simp
  | error => exact absurd hl hread.1
  | ok low =>
      cases hh : inner.highpc with
      | noEntry => simp
      | error => exact absurd hh hread.2
      | ok high => simp [and_comm]

-- What a walk leaves in `*sub_prog_die`: nothing new where it comes to no function with the
-- address, and else one that it finds no other below.
structure SubProgLeft (addrOffset : WORD) (die : Die) (before : Option Die)
    (result : DwRes Unit × Option Die) : Prop where
  noEntry : result.1 = .noEntry
  unchanged : (∀ path, Visited path → ¬Covers addrOffset die path) → result.2 = before
  found : ∀ path, Visited path → Covers addrOffset die path →
    ∃ last below, Visited last ∧ Covers addrOffset die last ∧ die.at last = some below ∧
      result.2 = some below ∧
      ∀ other, Visited other → Covers addrOffset die other → last <+: other → other = last

section Places

variable {first : Die} {others : List Die} {i : Nat}

theorem covers_head_iff :
    Covers addrOffset (.mk attrs (die :: rest)) [0] ↔ die.isSubProgOf addrOffset := by
  simp [Covers, Die.at, nodeAt, Die.children]

theorem not_covers_nil : ¬Covers addrOffset (.mk attrs []) path := by
  rintro ⟨hpath, below, hat, -⟩
  obtain ⟨i, path, rfl⟩ := List.exists_cons_of_ne_nil hpath
  cases hat

theorem covers_tail_iff :
    Covers addrOffset (.mk attrs (die :: rest)) ((i + 1) :: path) ↔
      Covers addrOffset (.mk attrs rest) (i :: path) := by
  simp [Covers, Die.at, nodeAt, Die.children]

theorem covers_single (h : Covers addrOffset (.mk attrs [die]) path) : ∃ more, path = 0 :: more := by
  obtain ⟨i, more, rfl⟩ := List.exists_cons_of_ne_nil h.1
  cases i with
  | zero => exact ⟨more, rfl⟩
  | succ i => exact absurd (covers_tail_iff.mp h) not_covers_nil

theorem at_tail :
    (Die.mk attrs (die :: rest)).at ((i + 1) :: path) = (Die.mk attrs rest).at (i :: path) := by
  simp [Die.at, nodeAt, Die.children]

theorem at_below {inner : DieAttrs} :
    (Die.mk attrs (.mk inner (first :: others) :: rest)).at (0 :: 0 :: path) = first.at path := rfl

theorem covers_below_iff {inner : DieAttrs} (hpath : path ≠ []) :
    Covers addrOffset (.mk attrs (.mk inner (first :: others) :: rest)) (0 :: 0 :: path) ↔
      Covers addrOffset first path := by
  unfold Covers
  rw [at_below]
  exact and_congr_left fun _ => iff_of_true (List.cons_ne_nil _ _) hpath

theorem Visited.ne_nil (h : Visited path) : path ≠ [] := by
  cases h with
  | child i => exact List.cons_ne_nil _ _
  | deeper i h => exact List.cons_ne_nil _ _

theorem visited_head_cases (h : Visited (0 :: path)) :
    path = [] ∨ ∃ more, path = 0 :: more ∧ Visited more := by
  cases h with
  | child i => exact .inl rfl
  | deeper i h => exact .inr ⟨_, rfl, h⟩

theorem visited_tail_iff (i j : Nat) : Visited (i :: path) ↔ Visited (j :: path) := by
  constructor <;>
  · intro h
    cases h with
    | child => exact .child _
    | deeper _ h => exact .deeper _ h

end Places

namespace SubProgLeft

variable {before mid : Option Die} {res : DwRes Unit} {result : DwRes Unit × Option Die}

theorem result_eq (h : SubProgLeft addrOffset die before result) :
    ∃ below, result = (.noEntry, below) := ⟨result.2, Prod.ext h.noEntry rfl⟩

-- The siblings behind come last.
theorem cons (hhead : SubProgLeft addrOffset (.mk attrs [die]) before (res, mid))
    (htail : SubProgLeft addrOffset (.mk attrs rest) mid result) :
    SubProgLeft addrOffset (.mk attrs (die :: rest)) before result where
  noEntry := htail.noEntry
  unchanged hnone := by
    have hmid : mid = before := hhead.unchanged fun path hvisited hcovers => by
      obtain ⟨more, rfl⟩ := covers_single hcovers
      exact hnone _ hvisited hcovers
    rw [← hmid]
    refine htail.unchanged fun path hvisited hcovers => ?_
    obtain ⟨i, path, rfl⟩ := List.exists_cons_of_ne_nil hcovers.1
    exact hnone _ ((visited_tail_iff i (i + 1)).mp hvisited) (covers_tail_iff.mpr hcovers)
  found path hvisited hcovers := by
    by_cases hbehind : ∃ path, Visited path ∧ Covers addrOffset (.mk attrs rest) path
    · obtain ⟨other, hother, hothers⟩ := hbehind
      obtain ⟨last, below, hlast, hlasts, hat, hresult, hmax⟩ := htail.found other hother hothers
      obtain ⟨i, last, rfl⟩ := List.exists_cons_of_ne_nil hlasts.1
      refine ⟨(i + 1) :: last, below, (visited_tail_iff i (i + 1)).mp hlast,
        covers_tail_iff.mpr hlasts, at_tail.trans hat, hresult, ?_⟩
      rintro other hvisited hcovers ⟨more, rfl⟩
      rw [List.cons_append] at hvisited hcovers ⊢
      have hsame := hmax _ ((visited_tail_iff (i + 1) i).mp hvisited) (covers_tail_iff.mp hcovers)
        (List.prefix_append (i :: last) more)
      rw [(List.cons.inj hsame).2]
    · have hnone : ∀ path, Visited path → ¬Covers addrOffset (.mk attrs rest) path :=
        fun path hvisited hcovers => hbehind ⟨path, hvisited, hcovers⟩
      have hhere {path : List Nat} (hvisited : Visited path)
          (hcovers : Covers addrOffset (.mk attrs (die :: rest)) path) :
          Covers addrOffset (.mk attrs [die]) path := by
        obtain ⟨i, more, rfl⟩ := List.exists_cons_of_ne_nil hcovers.1
        cases i with
        | zero => exact hcovers
        | succ i =>
            exact absurd (covers_tail_iff.mp hcovers)
              (hnone _ ((visited_tail_iff (i + 1) i).mp hvisited))
      obtain ⟨last, below, hlast, hlasts, hat, hresult, hmax⟩ :=
        hhead.found path hvisited (hhere hvisited hcovers)
      obtain ⟨more, rfl⟩ := covers_single hlasts
      exact ⟨0 :: more, below, hlast, hlasts, hat, (htail.unchanged hnone).trans hresult,
        fun other hvisited hcovers => hmax other hvisited (hhere hvisited hcovers)⟩

-- A DIE without children.
theorem leaf {inner : DieAttrs}
    (hhit : (.mk inner [] : Die).isSubProgOf addrOffset → mid = some (.mk inner []))
    (hmiss : ¬(.mk inner [] : Die).isSubProgOf addrOffset → mid = before) :
    SubProgLeft addrOffset (.mk attrs [.mk inner []]) before (.noEntry, mid) := by
  have honly {path : List Nat} (hcovers : Covers addrOffset (.mk attrs [.mk inner []]) path) :
      path = [0] := by
    obtain ⟨more, rfl⟩ := covers_single hcovers
    obtain ⟨-, below, hat, -⟩ := hcovers
    cases more with
    | nil => rfl
    | cons => cases hat
  refine ⟨rfl, fun hnone => hmiss fun hcovers => ?_, fun path hvisited hcovers => ?_⟩
  · exact hnone [0] (.child 0) (covers_head_iff.mpr hcovers)
  · rw [honly hcovers] at hcovers
    exact ⟨[0], _, .child 0, hcovers, rfl, hhit (covers_head_iff.mp hcovers),
      fun other _ hother _ => honly hother⟩

-- A DIE with children: the walk goes on with those of the first.
theorem node {first : Die} {here : Option Die} (hbelow : SubProgLeft addrOffset first here result)
    (attrs : DieAttrs) {inner : DieAttrs} {others : List Die}
    (hhit : (.mk inner (first :: others) : Die).isSubProgOf addrOffset →
      here = some (.mk inner (first :: others)))
    (hmiss : ¬(.mk inner (first :: others) : Die).isSubProgOf addrOffset → here = before) :
    SubProgLeft addrOffset (.mk attrs [.mk inner (first :: others)]) before result := by
  have hcases {path : List Nat} (hvisited : Visited path)
      (hcovers : Covers addrOffset (.mk attrs [.mk inner (first :: others)]) path) :
      path = [0] ∨ ∃ more, path = 0 :: 0 :: more ∧ Visited more ∧ Covers addrOffset first more := by
    obtain ⟨more, rfl⟩ := covers_single hcovers
    rcases visited_head_cases hvisited with rfl | ⟨more, rfl, hmore⟩
    · exact .inl rfl
    · exact .inr ⟨more, rfl, hmore, (covers_below_iff hmore.ne_nil).mp hcovers⟩
  refine ⟨hbelow.noEntry, fun hnone => ?_, fun path hvisited hcovers => ?_⟩
  · have hhere : here = before :=
      hmiss fun hcovers => hnone [0] (.child 0) (covers_head_iff.mpr hcovers)
    rw [← hhere]
    exact hbelow.unchanged fun path hvisited hcovers =>
      hnone _ (.deeper 0 hvisited) ((covers_below_iff hvisited.ne_nil).mpr hcovers)
  · by_cases hdeeper : ∃ path, Visited path ∧ Covers addrOffset first path
    · obtain ⟨other, hother, hothers⟩ := hdeeper
      obtain ⟨last, below, hlast, hlasts, hat, hresult, hmax⟩ := hbelow.found other hother hothers
      refine ⟨0 :: 0 :: last, below, .deeper 0 hlast, (covers_below_iff hlast.ne_nil).mpr hlasts,
        hat, hresult, ?_⟩
      intro other hvisited hcovers hwithin
      rcases hcases hvisited hcovers with rfl | ⟨more, rfl, hmore, hmores⟩
      · have hlength := hwithin.length_le
        simp at hlength
      · rw [hmax more hmore hmores (by simpa using hwithin)]
    · have hnone : ∀ path, Visited path → ¬Covers addrOffset first path :=
        fun path hvisited hcovers => hdeeper ⟨path, hvisited, hcovers⟩
      have honly {path : List Nat} (hvisited : Visited path)
          (hcovers : Covers addrOffset (.mk attrs [.mk inner (first :: others)]) path) :
          path = [0] :=
        (hcases hvisited hcovers).resolve_right fun ⟨more, _, hmore, hmores⟩ =>
          hnone more hmore hmores
      have hhead := covers_head_iff.mp (honly hvisited hcovers ▸ hcovers)
      exact ⟨[0], _, .child 0, covers_head_iff.mpr hhead, rfl,
        (hbelow.unchanged hnone).trans (hhit hhead),
        fun other hvisited hcovers _ => honly hvisited hcovers⟩

end SubProgLeft

namespace Die.Readable

theorem head {inner : DieAttrs} (h : (Die.mk attrs (.mk inner dies :: rest)).Readable) :
    inner.lowpc ≠ .error ∧ inner.highpc ≠ .error := h [0] (.mk inner dies) rfl

theorem tail (h : (Die.mk attrs (die :: rest)).Readable) : (Die.mk attrs rest).Readable := by
  intro path below hat
  cases path with
  | nil =>
      cases hat
      exact h [] (.mk attrs (die :: rest)) rfl
  | cons i path => exact h ((i + 1) :: path) below (at_tail.trans hat)

theorem mk (hattrs : attrs.lowpc ≠ .error ∧ attrs.highpc ≠ .error)
    (hdies : ∀ die ∈ dies, die.Readable) : (Die.mk attrs dies).Readable := by
  intro path below hat
  cases path with
  | nil =>
      cases hat
      exact hattrs
  | cons i path =>
      obtain ⟨child, hchild, hpath⟩ := nodeAt_cons_eq_some.mp hat
      exact hdies child (List.mem_of_getElem? hchild) path below hpath

theorem first {inner : DieAttrs} {first : Die} {others : List Die}
    (h : (Die.mk attrs (.mk inner (first :: others) :: rest)).Readable) : first.Readable :=
  fun path below hat => h (0 :: 0 :: path) below hat

end Die.Readable

section Passes

variable {inner : DieAttrs} {first : Die} {others : List Die}

-- What a pass of the loop stores for the DIE itself.
def stored (addrOffset : WORD) (attrs : DieAttrs) (dies : List Die) (before : Option Die) :
    Option Die :=
  if dieContainsAddrOffset addrOffset (.mk attrs dies) = .ok true &&
    attrs.tag = .DW_TAG_subprogram then some (.mk attrs dies) else before

theorem subProgSiblings_leaf (before : Option Die)
    (hread : dieContainsAddrOffset addrOffset (.mk inner []) ≠ .error) :
    subProgSiblings addrOffset (.mk inner [] :: rest) before =
      subProgSiblings addrOffset rest (stored addrOffset inner [] before) := by
  unfold stored
  rw [subProgSiblings]
  cases hres : dieContainsAddrOffset addrOffset (.mk inner []) with
  | error => exact absurd hres hread
  | noEntry => rfl
  | ok contains => rfl

theorem subProgSiblings_node (before : Option Die)
    (hread : dieContainsAddrOffset addrOffset (.mk inner (first :: others)) ≠ .error)
    {below : Option Die}
    (hbelow : getSubProgDieInDieFromAddr addrOffset first
      (stored addrOffset inner (first :: others) before) = (.noEntry, below)) :
    subProgSiblings addrOffset (.mk inner (first :: others) :: rest) before =
      subProgSiblings addrOffset rest below := by
  unfold stored at hbelow
  rw [subProgSiblings]
  cases hres : dieContainsAddrOffset addrOffset (.mk inner (first :: others)) with
  | error => exact absurd hres hread
  | noEntry =>
      rw [hres] at hbelow
      dsimp only
      rw [hbelow]
  | ok contains =>
      rw [hres] at hbelow
      dsimp only
      rw [hbelow]

theorem stored_of_hit (before : Option Die)
    (hread : inner.lowpc ≠ .error ∧ inner.highpc ≠ .error)
    (h : (Die.mk inner dies).isSubProgOf addrOffset) :
    stored addrOffset inner dies before = some (.mk inner dies) :=
  if_pos ((dieContains_iff addrOffset dies hread).2.mpr h)

theorem stored_of_miss (before : Option Die)
    (hread : inner.lowpc ≠ .error ∧ inner.highpc ≠ .error)
    (h : ¬(Die.mk inner dies).isSubProgOf addrOffset) :
    stored addrOffset inner dies before = before :=
  if_neg fun hit => h ((dieContains_iff addrOffset dies hread).2.mp hit)

end Passes

mutual

theorem getSubProgDieInDieFromAddr_leaves (addrOffset : WORD) (die : Die) (before : Option Die)
    (hread : die.Readable) :
    SubProgLeft addrOffset die before (getSubProgDieInDieFromAddr addrOffset die before) := by
  obtain ⟨attrs, dies⟩ := die
  unfold getSubProgDieInDieFromAddr
  exact subProgSiblings_leaves addrOffset attrs dies before hread

theorem subProgSiblings_leaves (addrOffset : WORD) (attrs : DieAttrs) (dies : List Die)
    (before : Option Die) (hread : (Die.mk attrs dies).Readable) :
    SubProgLeft addrOffset (.mk attrs dies) before (subProgSiblings addrOffset dies before) := by
  match dies with
  | [] =>
      unfold subProgSiblings
      exact ⟨rfl, fun _ => rfl, fun path _ hcovers => absurd hcovers not_covers_nil⟩
  | .mk inner [] :: rest =>
      have hrest (mid : Option Die) := subProgSiblings_leaves addrOffset attrs rest mid hread.tail
      rw [subProgSiblings_leaf before (dieContains_iff addrOffset [] hread.head).1]
      exact (SubProgLeft.leaf (stored_of_hit before hread.head)
        (stored_of_miss before hread.head)).cons (hrest _)
  | .mk inner (first :: others) :: rest =>
      have hrest (mid : Option Die) := subProgSiblings_leaves addrOffset attrs rest mid hread.tail
      have hfirst := getSubProgDieInDieFromAddr_leaves addrOffset first
        (stored addrOffset inner (first :: others) before) hread.first
      obtain ⟨below, hwalk⟩ := hfirst.result_eq
      rw [subProgSiblings_node before (dieContains_iff addrOffset _ hread.head).1 hwalk]
      rw [hwalk] at hfirst
      exact (hfirst.node attrs (stored_of_hit before hread.head)
        (stored_of_miss before hread.head)).cons (hrest _)

end

-- The range of a function below the DIE.
def SubProgRange (die : Die) (path : List Nat) (low high : UWORD) : Prop :=
  path ≠ [] ∧ ∃ below, die.at path = some below ∧ below.attrs.tag = .DW_TAG_subprogram ∧
    getLowHighPcFromDie below = .ok (low, high)

-- Two functions are nested along the tree, the ranges too, or have no address in common.
def NestedOrDisjoint (die : Die) : Prop :=
  ∀ path low high other low' high', SubProgRange die path low high →
    SubProgRange die other low' high' →
    path <+: other ∧ low ≤ low' ∧ high' ≤ high ∨ other <+: path ∧ low' ≤ low ∧ high ≤ high' ∨
      high ≤ low' ∨ high' ≤ low

-- Functions with a common address lie one below the other.
theorem NestedOrDisjoint.comparable (h : NestedOrDisjoint die) (hpath : Covers addrOffset die path)
    (hmore : Covers addrOffset die more) : path <+: more ∨ more <+: path := by
  obtain ⟨hne, below, hat, htag, low, high, hrange, hlow, hhigh⟩ := hpath
  obtain ⟨hne', below', hat', htag', low', high', hrange', hlow', hhigh'⟩ := hmore
  rcases h path low high more low' high' ⟨hne, below, hat, htag, hrange⟩
    ⟨hne', below', hat', htag', hrange'⟩ with hnested | hnested | hdisjoint
  · exact .inl hnested.1
  · exact .inr hnested.1
  · exfalso
    bv_omega

-- The tree is finite, so a covering function has an innermost one at or below it.
theorem NestedOrDisjoint.exists_innermost (h : NestedOrDisjoint die)
    (hpath : Covers addrOffset die path) : ∃ inner, InnermostAt addrOffset die inner := by
  obtain ⟨inner, hinner, hmax⟩ :=
    (measure fun path : List Nat => sizeOf die - path.length).wf.has_min
      {path | Covers addrOffset die path} ⟨path, hpath⟩
  refine ⟨inner, hinner, fun other hother => ?_⟩
  rcases h.comparable hother hinner with hwithin | hwithin
  · exact hwithin
  · have hnot : ¬sizeOf die - other.length < sizeOf die - inner.length := hmax other hother
    obtain ⟨-, below, hat, -⟩ := hother
    have hsize := nodeAt_size Die.sizeOf_child hat
    have hlength := hwithin.length_le
    obtain rfl := hwithin.eq_of_length (by omega)
    exact List.prefix_rfl

theorem InnermostAt.unique (h : InnermostAt addrOffset die path)
    (hmore : InnermostAt addrOffset die more) : path = more :=
  (hmore.innermost path h.covers).eq_of_length_le (h.innermost more hmore.covers).length_le

-- A function is found if one covers the address, and where they are nested or disjoint it is
-- the innermost.
structure FindsInnermost (addrOffset : WORD) (cu : Die) : Prop where
  found : (getSubProgDieInDieFromAddr addrOffset cu none).2 ≠ none ↔
    ∃ path, Covers addrOffset cu path
  innermost : NestedOrDisjoint cu → ∀ die,
    (getSubProgDieInDieFromAddr addrOffset cu none).2 = some die →
      ∃ path, InnermostAt addrOffset cu path ∧ cu.at path = some die

-- The recursive call is on the first child and begins with the children of that, so half of
-- the levels are skipped, and all but the first child on those.
theorem finds_innermost_iff (addrOffset : WORD) (hread : cu.Readable) :
    FindsInnermost addrOffset cu ↔
      ((∃ path, Covers addrOffset cu path) → ∃ path, Visited path ∧ Covers addrOffset cu path) ∧
        (NestedOrDisjoint cu → ∀ path, InnermostAt addrOffset cu path → Visited path) := by
  have hleaves := getSubProgDieInDieFromAddr_leaves addrOffset cu none hread
  constructor
  · intro h
    have hvisited (hcovers : ∃ path, Covers addrOffset cu path) :
        ∃ path, Visited path ∧ Covers addrOffset cu path := by
      by_contra hnone
      exact h.found.mpr hcovers
        (hleaves.unchanged fun path hvisit hcover => hnone ⟨path, hvisit, hcover⟩)
    refine ⟨hvisited, fun hnested path hinner => ?_⟩
    obtain ⟨other, hother, hothers⟩ := hvisited ⟨path, hinner.covers⟩
    obtain ⟨last, below, hlast, hlasts, hat, hresult, -⟩ := hleaves.found other hother hothers
    obtain ⟨inner, hinners, hats⟩ := h.innermost hnested below hresult
    have hpath := hinner.unique hinners
    have hsame : last = inner :=
      eq_of_prefix_of_nodeAt Die.sizeOf_child (hinners.innermost last hlasts) hat hats
    rwa [hpath, ← hsame]
  · rintro ⟨hvisited, hinner⟩
    refine ⟨⟨fun hfound => ?_, fun hcovers => ?_⟩, fun hnested die hresult => ?_⟩
    · by_contra hnone
      exact hfound (hleaves.unchanged fun path _ hcovers => hnone ⟨path, hcovers⟩)
    · obtain ⟨path, hvisit, hcover⟩ := hvisited hcovers
      obtain ⟨-, below, -, -, -, hresult, -⟩ := hleaves.found path hvisit hcover
      rw [hresult]
      exact Option.some_ne_none below
    · have hcovers : ∃ path, Covers addrOffset cu path := by
        by_contra hnone
        rw [hleaves.unchanged fun path _ hcovers => hnone ⟨path, hcovers⟩] at hresult
        cases hresult
      obtain ⟨path, hpath⟩ := hcovers
      obtain ⟨inner, hinners⟩ := hnested.exists_innermost hpath
      have hvisit := hinner hnested inner hinners
      obtain ⟨last, below, -, hlasts, hat, hfound, hmax⟩ :=
        hleaves.found inner hvisit hinners.covers
      have hlast := hmax inner hvisit hinners.covers (hinners.innermost last hlasts)
      cases hfound.symm.trans hresult
      exact ⟨inner, hinners, hlast ▸ hat⟩

def functionDie (low high : UWORD) : Die :=
  .mk { tag := .DW_TAG_subprogram, lowpc := .ok low, highpc := .ok ⟨high, true⟩ } []

-- DW_TAG_namespace
def namespaceDie (children : List Die) : Die :=
  .mk { tag := .other 0x39, lowpc := .noEntry, highpc := .noEntry } children

def unitDie (children : List Die) : Die :=
  .mk { tag := .DW_TAG_compile_unit, lowpc := .ok 0x2000, highpc := .ok ⟨0x3000, true⟩ } children

theorem unitDie_readable {children : List Die} (h : ∀ child ∈ children, child.Readable) :
    (unitDie children).Readable := .mk (by decide) h

theorem functionDie_readable (low high : UWORD) : (functionDie low high).Readable :=
  .mk ⟨fun h => (by cases h), fun h => (by cases h)⟩ fun _ h => absurd h List.not_mem_nil

-- A function, its block, and two functions in that.
def nestedDie : Die :=
  .mk (functionDie 0x2000 0x2100).attrs
    [.mk { tag := .DW_TAG_lexical_block, lowpc := .noEntry, highpc := .noEntry }
      [functionDie 0x2008 0x2010, functionDie 0x2010 0x2020]]

theorem nestedDie_readable : nestedDie.Readable := by
  refine .mk ⟨fun h => (by cases h), fun h => (by cases h)⟩ fun block hblock => ?_
  rw [List.mem_singleton.mp hblock]
  refine .mk (by decide) fun child hchild => ?_
  rcases List.mem_pair.mp hchild with rfl | rfl <;> exact functionDie_readable _ _

-- The function on the third level, below a first child.
theorem function_in_function :
    (getSubProgDieInDieFromAddr 0x2010 (unitDie [nestedDie]) none).2 =
        some (functionDie 0x2010 0x2020) ∧
      FindsInnermost 0x2010 (unitDie [nestedDie]) := by
  have hread : (unitDie [nestedDie]).Readable := unitDie_readable fun child hchild => by
    rw [List.mem_singleton.mp hchild]
    exact nestedDie_readable
  have houter : Covers 0x2010 (unitDie [nestedDie]) [0] :=
    covers_head_iff.mpr ⟨rfl, 0x2000, 0x2100, rfl, by decide, by decide⟩
  have hinner : Covers 0x2010 (unitDie [nestedDie]) [0, 0, 1] :=
    ⟨by decide, _, rfl, rfl, 0x2010, 0x2020, rfl, by decide, by decide⟩
  refine ⟨rfl, (finds_innermost_iff 0x2010 hread).mpr
    ⟨fun _ => ⟨[0], .child 0, houter⟩, fun _ path hinnermost => ?_⟩⟩
  obtain ⟨more, rfl⟩ := hinnermost.innermost _ hinner
  obtain ⟨-, below, hat, -⟩ := hinnermost.covers
  cases more with
  | nil => exact .deeper 0 (.child 1)
  | cons => cases hat

-- A function in a namespace is on the second level.
theorem function_in_namespace_missed :
    (getSubProgDieInDieFromAddr 0x2010
      (unitDie [namespaceDie [functionDie 0x2000 0x2100]]) none).2 = none ∧
      Covers 0x2010 (unitDie [namespaceDie [functionDie 0x2000 0x2100]]) [0, 0] ∧
      ¬FindsInnermost 0x2010 (unitDie [namespaceDie [functionDie 0x2000 0x2100]]) := by
  have hcovers : Covers 0x2010 (unitDie [namespaceDie [functionDie 0x2000 0x2100]]) [0, 0] :=
    ⟨by decide, _, rfl, rfl, 0x2000, 0x2100, rfl, by decide, by decide⟩
  exact ⟨rfl, hcovers, fun h => h.found.mpr ⟨_, hcovers⟩ rfl⟩

end VDebugger
