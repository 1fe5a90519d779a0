import VDebugger.Var.Found

namespace VDebugger

open Machine

variable {undef name : CString} {pc : UWORD} {root die : Die} {path : List Nat}

-- The pc lies in the block's range.
def Contains (pc : UWORD) (die : Die) : Prop :=
  die.isBlock = true ∧ ∃ low high, getLowHighPcFromDie die = .ok (low, high) ∧ low ≤ pc ∧ pc < high

theorem Contains.enters (h : Contains pc die) : Enters pc die := by
  obtain ⟨hblock, low, high, hrange, hlow, hhigh⟩ := h
  exact ⟨hblock, low, high, hrange, hlow, by bv_omega⟩

-- The DIE is that of a variable or parameter of the name.
def DeclaresName (name : CString) (die : Die) : Prop :=
  die.isVariable = true ∧ die.attrs.name = .ok name

theorem DeclaresName.named (h : DeclaresName name die) (undef : CString) :
    Named undef name die := ⟨h.1, .inl h.2⟩

section Hidden

-- Blocks with the pc in them, one in the other, lead to a declaration of the name.
def InScope (name : CString) (pc : UWORD) (root : Die) (path : List Nat) (die : Die) : Prop :=
  path ≠ [] ∧ PathThrough Die.children (Contains pc) root path die ∧ DeclaresName name die

-- A name in scope is found.
def FindsInScope (undef name : CString) (pc : UWORD) (root : Die) : Prop :=
  (∃ path die, InScope name pc root path die) →
    ∃ die, getLocalVarFromName undef (some name) pc root = some (.ok (), some die)

-- A block without a range ends the loop over it and its siblings, and as a first child also
-- the one over the block around it and that one's siblings.
theorem finds_in_scope_iff (undef name : CString) (pc : UWORD) (root : Die) :
    FindsInScope undef name pc root ↔
      ((∃ path die, InScope name pc root path die) →
        ∃ path die, ComesTo pc root path die ∧ Named undef name die ∧ Unhidden pc root path ∧
          ∀ other below, ComesTo pc root other below → Unread below → Unhidden pc root other →
            ¬Before other path) := by
  obtain ⟨result, hwalk, hends, -⟩ := getLocalVarFromName_walk undef name pc root
  unfold FindsInScope
  rw [hwalk]
  refine forall_congr' fun _ => ?_
  constructor
  · rintro ⟨die, hresult⟩
    cases hresult
    cases hends with
    | @found path _ h hnamed =>
        exact ⟨path, die, h.reaches, hnamed, h.unhidden, fun other below hreaches hunread hopen =>
          h.first other below ⟨hreaches, .inr hunread, hopen⟩⟩
  · rintro ⟨path, die, hreaches, hnamed, hopen, hunread⟩
    have hstop : StopPlace undef name pc root path die := ⟨hreaches, .inl hnamed, hopen⟩
    cases hends with
    | found => exact ⟨_, rfl⟩
    | nothing _ hnone => exact absurd hstop (hnone path die)
    | @failed other below h hfailed =>
        exfalso
        rcases hreaches.before_or_before h.reaches hnamed.not_enters hfailed.not_enters with
          rfl | hbefore | hbefore
        · have hsame : die = below :=
            Option.some_inj.mp (hreaches.nodeAt_eq.symm.trans h.reaches.nodeAt_eq)
          subst hsame
          exact hfailed.not_named hnamed
        · exact h.first path die hstop hbefore
        · exact hunread other below h.reaches hfailed h.unhidden hbefore

def xDie (tag : DwTag) : Die :=
  .mk { tag, lowpc := .noEntry, highpc := .noEntry, name := .ok "x".toList } []

def blockDie (tag : DwTag) (low high : UWORD) (children : List Die) : Die :=
  .mk { tag, lowpc := .ok low, highpc := .ok ⟨high, true⟩ } children

-- An inlined call that has ranges only.
def inlinedDie : Die :=
  .mk { tag := .DW_TAG_inlined_subroutine, lowpc := .noEntry, highpc := .noEntry } []

theorem contains_blockDie {low high : UWORD} {children : List Die} (hlow : low ≤ pc)
    (hhigh : pc < high) : Contains pc (blockDie .DW_TAG_subprogram low high children) :=
  ⟨rfl, low, high, rfl, hlow, hhigh⟩

theorem found_before_inlined : FindsInScope [] "x".toList 0x2000
    (blockDie .DW_TAG_subprogram 0x2000 0x2100 [xDie .DW_TAG_variable, inlinedDie]) := by
  refine (finds_in_scope_iff [] "x".toList 0x2000 _).mpr fun _ =>
    ⟨[0], xDie .DW_TAG_variable, ?_, ?_, ?_, ?_⟩
  · exact .down (contains_blockDie (by decide) (by decide)).enters rfl (.here _)
  · exact ⟨rfl, .inl rfl⟩
  · intro other die hother hrangeless hhidden
    rcases hhidden with ⟨hlt, -⟩ | ⟨-, hhidden⟩
    · exact absurd hlt (Nat.not_lt_zero _)
    · exact Elder.not_nil_right hhidden
  · intro other below hother hunread hopen hbefore
    rcases hbefore with ⟨hlt, -⟩ | ⟨-, hbefore⟩
    · exact absurd hlt (Nat.not_lt_zero _)
    · exact Elder.not_nil_right hbefore

-- The first child has no low pc, and the function's call returns what that one's does.
theorem hidden_behind_inlined :
    (∃ path die, InScope "x".toList 0x2000
      (blockDie .DW_TAG_subprogram 0x2000 0x2100 [inlinedDie, xDie .DW_TAG_variable]) path die) ∧
      getLocalVarFromName [] (some "x".toList) 0x2000
        (blockDie .DW_TAG_subprogram 0x2000 0x2100 [inlinedDie, xDie .DW_TAG_variable]) =
          some (.noEntry, none) ∧
      ¬FindsInScope [] "x".toList 0x2000
        (blockDie .DW_TAG_subprogram 0x2000 0x2100 [inlinedDie, xDie .DW_TAG_variable]) := by
  have hscope : ∃ path die, InScope "x".toList 0x2000
      (blockDie .DW_TAG_subprogram 0x2000 0x2100 [inlinedDie, xDie .DW_TAG_variable]) path die :=
    ⟨[1], _, by decide, .down (contains_blockDie (by decide) (by decide)) rfl (.here _), rfl, rfl⟩
  refine ⟨hscope, rfl, fun h => ?_⟩
  obtain ⟨die, hfound⟩ := h hscope
  cases hfound

end Hidden

section Blocks

abbrev Blocks (root : Die) (path : List Nat) (die : Die) : Prop :=
  PathThrough Die.children (fun die => die.isBlock = true) root path die

-- The block has one range, the blocks in it have theirs inside, and no two of those have an
-- address in common.
structure ScopedBlock (block : Die) : Prop where
  ranged : ∃ low high, getLowHighPcFromDie block = .ok (low, high)
  inside : ∀ child ∈ block.children, child.isBlock = true → ∀ low high low' high',
    getLowHighPcFromDie block = .ok (low, high) → getLowHighPcFromDie child = .ok (low', high') →
      low ≤ low' ∧ high' ≤ high
  disjoint : block.children.Pairwise fun child other =>
    child.isBlock = true → other.isBlock = true → ∀ low high low' high',
      getLowHighPcFromDie child = .ok (low, high) → getLowHighPcFromDie other = .ok (low', high') →
        ∀ a, ¬(low ≤ a ∧ a < high ∧ low' ≤ a ∧ a < high')

-- So is every block, and every variable has a name.
structure ScopeTree (root : Die) : Prop where
  blocks : ∀ path block, Blocks root path block → block.isBlock = true → ScopedBlock block
  named : ∀ path var, Blocks root path var → var.isVariable = true →
    ∃ name, var.attrs.name = .ok name

theorem ScopeTree.child (h : ScopeTree root) (hblock : root.isBlock = true) {i : Nat} {child : Die}
    (hchild : root.children[i]? = some child) : ScopeTree child where
  blocks path block hpath := h.blocks (i :: path) block (.down hblock hchild hpath)
  named path var hpath := h.named (i :: path) var (.down hblock hchild hpath)

-- All blocks around one with the pc in it have the pc in them.
theorem ScopeTree.contains_above {block : Die} (h : ScopeTree root)
    (hpath : Blocks root path block) (hpc : Contains pc block) :
    PathThrough Die.children (Contains pc) root path block := by
  induction hpath with
  | here => exact .here _
  | @down root child block i path hblock hchild _ ih =>
      have hbelow := ih (h.child hblock hchild) hpc
      have hcontains : Contains pc child := by
        cases hbelow with
        | here => exact hpc
        | down hcontains => exact hcontains
      obtain ⟨hchildBlock, low', high', hrange', hlow', hhigh'⟩ := hcontains
      have hroot := h.blocks [] root (.here root) hblock
      obtain ⟨low, high, hrange⟩ := hroot.ranged
      obtain ⟨hlow, hhigh⟩ := hroot.inside child (List.mem_of_getElem? hchild) hchildBlock
        low high low' high' hrange hrange'
      exact .down ⟨hblock, low, high, hrange, by bv_omega, by bv_omega⟩ hchild hbelow

-- A block with the pc in it has this declaration of the name.
def DeclaredAt (name : CString) (pc : UWORD) (root : Die) (path : List Nat) (die : Die) : Prop :=
  ∃ outer block i, path = outer ++ [i] ∧ Blocks root outer block ∧ Contains pc block ∧
    block.children[i]? = some die ∧ DeclaresName name die

-- No block further in has one.
structure InnermostDecl (name : CString) (pc : UWORD) (root : Die) (path : List Nat)
    (die : Die) : Prop where
  declared : DeclaredAt name pc root path die
  innermost : ∀ other below, DeclaredAt name pc root other below → other.length ≤ path.length

-- The name stands for its declaration in the innermost block that has one.
structure ResolvesByScope (undef name : CString) (pc : UWORD) (root : Die) : Prop where
  declared : (∃ path die, DeclaredAt name pc root path die) →
    ∃ path die, InnermostDecl name pc root path die ∧ GivesPlace undef name pc root (some path)
  absent : (¬∃ path die, DeclaredAt name pc root path die) → GivesPlace undef name pc root none

theorem DeclaredAt.comesTo (h : ScopeTree root) (hdecl : DeclaredAt name pc root path die) :
    ComesTo pc root path die := by
  obtain ⟨outer, block, i, rfl, hpath, hpc, hchild, -⟩ := hdecl
  exact ((h.contains_above hpath hpc).concat hpc hchild).mono fun _ => Contains.enters

theorem DeclaredAt.declaresName (h : DeclaredAt name pc root path die) : DeclaresName name die := by
  obtain ⟨-, -, -, -, -, -, -, hname⟩ := h
  exact hname

theorem ScopeTree.not_rangeless (h : ScopeTree root) (hcomes : ComesTo pc root path die) :
    ¬Rangeless die := by
  rintro ⟨hblock, hrange⟩
  have hpath : Blocks root path die := hcomes.mono fun _ henters => henters.1
  obtain ⟨low, high, hok⟩ := (h.blocks path die hpath hblock).ranged
  cases hok.symm.trans hrange

-- In such a tree the walk ends at declarations of the name only.
theorem ScopeTree.stopPlace_iff (h : ScopeTree root) :
    StopPlace undef name pc root path die ↔ ComesTo pc root path die ∧ DeclaresName name die := by
  have hblocks {path : List Nat} {die : Die} (hcomes : ComesTo pc root path die) :
      Blocks root path die := hcomes.mono fun _ henters => henters.1
  constructor
  · rintro ⟨hcomes, ⟨hvariable, hname⟩ | ⟨hvariable, herror⟩ | ⟨hblock, herror⟩, -⟩
    · obtain ⟨dieName, hok⟩ := h.named path die (hblocks hcomes) hvariable
      rcases hname with hname | ⟨hnone, -⟩
      · exact ⟨hcomes, hvariable, hname⟩
      · cases hok.symm.trans hnone
    · obtain ⟨dieName, hok⟩ := h.named path die (hblocks hcomes) hvariable
      cases hok.symm.trans herror
    · obtain ⟨low, high, hok⟩ := (h.blocks path die (hblocks hcomes) hblock).ranged
      cases hok.symm.trans herror
  · rintro ⟨hcomes, hname⟩
    refine ⟨hcomes, .inl (hname.named undef), fun other below hother hrangeless _ => ?_⟩
    exact h.not_rangeless hother hrangeless

-- The walk takes the first declaration in the order of the tree, and blocks that end at the pc
-- are in it. It has freed the declaration by then if that is the first child of its block.
theorem resolves_by_scope_iff (undef name : CString) (h : ScopeTree root) :
    (ResolvesByScope undef name pc root ↔
      ∀ path die, ComesTo pc root path die → DeclaresName name die →
        InnermostDecl name pc root path die ∨
          ∃ other below, ComesTo pc root other below ∧
            InnermostDecl name pc root other below ∧ Before other path) ∧
      ∀ path, GivesPlace undef name pc root (some path) →
        (GivesLive undef name pc root path ↔ path.getLast? ≠ some 0) := by
  obtain ⟨res, place, hfinds, hgives, -⟩ := givesPlace_unique undef name pc root
  refine ⟨?_, fun path hpath => ?_⟩
  · cases place with
    | some first =>
        obtain rfl : res = .ok () := hfinds.ok first rfl
        obtain ⟨below, hplace, hnamed⟩ := hfinds.endPlace first rfl
        obtain ⟨hfirst, hfirstName⟩ := h.stopPlace_iff.mp hplace.toStopPlace
        constructor
        · intro hresolves path die hcomes hname
          have hinner : InnermostDecl name pc root first below := by
            have hdeclared : ∃ path die, DeclaredAt name pc root path die := by
              by_contra hnone
              cases ((hgives none).mp (hresolves.absent hnone)).2
            obtain ⟨inner, die, hinner, hplaced⟩ := hresolves.declared hdeclared
            obtain rfl : inner = first := Option.some.inj ((hgives _).mp hplaced).2
            cases (hinner.declared.comesTo h).nodeAt_eq.symm.trans hfirst.nodeAt_eq
            exact hinner
          have hstop : StopPlace undef name pc root path die := h.stopPlace_iff.mpr ⟨hcomes, hname⟩
          rcases hcomes.before_or_before hfirst (hname.named undef).not_enters
              hnamed.not_enters with rfl | hbefore | hbefore
          · cases hcomes.nodeAt_eq.symm.trans hfirst.nodeAt_eq
            exact .inl hinner
          · exact absurd hbefore (hplace.first path die hstop)
          · exact .inr ⟨first, below, hfirst, hinner, hbefore⟩
        · intro horder
          have hinner : InnermostDecl name pc root first below := by
            rcases horder first below hfirst hfirstName with
              hinner | ⟨other, die, hother, hinner, hbefore⟩
            · exact hinner
            · have hstop : StopPlace undef name pc root other die :=
                h.stopPlace_iff.mpr ⟨hother, hinner.declared.declaresName⟩
              exact absurd hbefore (hplace.first other die hstop)
          refine ⟨fun _ => ⟨first, below, hinner, (hgives _).mpr ⟨rfl, rfl⟩⟩, fun hnone => ?_⟩
          exact absurd ⟨first, below, hinner.declared⟩ hnone
    | none =>
        obtain ⟨result, hwalk, hends, hnoEntry⟩ := getLocalVarFromName_walk undef name pc root
        obtain rfl : result = (res, none) := Option.some.inj (hwalk.symm.trans hfinds.result)
        cases hends with
        | failed hplace hunread =>
            have hname := (h.stopPlace_iff.mp hplace.toStopPlace).2
            exact absurd (hname.named undef) hunread.not_named
        | nothing hres hnone =>
            have hno {path : List Nat} {die : Die} (hcomes : ComesTo pc root path die) :
                ¬DeclaresName name die :=
              fun hname => hnone path die (h.stopPlace_iff.mpr ⟨hcomes, hname⟩)
            have hundeclared : ¬∃ path die, DeclaredAt name pc root path die := by
              rintro ⟨path, die, hdecl⟩
              exact hno (hdecl.comesTo h) hdecl.declaresName
            refine iff_of_true ⟨fun hdecl => absurd hdecl hundeclared, fun _ => ?_⟩
              fun path die hcomes hname => absurd hname (hno hcomes)
            cases res with
            | ok => exact (hgives none).mpr ⟨rfl, rfl⟩
            | error => exact absurd rfl hres
            | noEntry =>
                obtain ⟨other, below, -, hother, hrangeless⟩ := hnoEntry.mp rfl
                exact absurd hrangeless (h.not_rangeless hother)
  · exact hpath.live_iff

theorem ScopeTree.node (hblock : root.isBlock = true → ScopedBlock root)
    (hname : root.isVariable = true → ∃ name, root.attrs.name = .ok name)
    (hchildren : root.isBlock = true → ∀ child ∈ root.children, ScopeTree child) :
    ScopeTree root where
  blocks path block hpath hisBlock := by
    cases hpath with
    | here => exact hblock hisBlock
    | down hroot hchild hrest =>
        exact (hchildren hroot _ (List.mem_of_getElem? hchild)).blocks _ block hrest hisBlock
  named path var hpath hvariable := by
    cases hpath with
    | here => exact hname hvariable
    | down hroot hchild hrest =>
        exact (hchildren hroot _ (List.mem_of_getElem? hchild)).named _ var hrest hvariable

theorem leaf_scopeTree {attrs : DieAttrs} {dieName : CString} (hname : attrs.name = .ok dieName)
    (hleaf : (Die.mk attrs []).isBlock = false) : ScopeTree (.mk attrs []) :=
  .node (fun hblock => by rw [hleaf] at hblock; cases hblock) (fun _ => ⟨dieName, hname⟩)
    fun hblock => by rw [hleaf] at hblock; cases hblock

def yDie : Die :=
  .mk { tag := .DW_TAG_variable, lowpc := .noEntry, highpc := .noEntry, name := .ok "y".toList } []

-- A block with a variable in a function with a parameter of the same name. There is
-- another variable in front of either.
def innerBlock : Die :=
  blockDie .DW_TAG_lexical_block 0x2010 0x2020 [yDie, xDie .DW_TAG_variable]

theorem innerBlock_children {child : Die} (hchild : child ∈ innerBlock.children) :
    child = yDie ∨ child = xDie .DW_TAG_variable := List.mem_pair.mp hchild

theorem innerBlock_scopeTree : ScopeTree innerBlock := by
  refine .node (fun _ => ⟨⟨0x2010, 0x2020, rfl⟩, ?_, List.pairwise_pair.mpr fun h => by cases h⟩)
    (fun h => by cases h) fun _ child hchild => ?_
  · intro child hchild hblock
    rcases innerBlock_children hchild with rfl | rfl <;> cases hblock
  · rcases innerBlock_children hchild with rfl | rfl <;> exact leaf_scopeTree rfl rfl

def shadowing (children : List Die) : Die := blockDie .DW_TAG_subprogram 0x2000 0x2100 children

def xParam : Die := xDie .DW_TAG_formal_parameter

-- What the function has for children.
def Shadows (children : List Die) : Prop :=
  ∀ child ∈ children, child = innerBlock ∨ child = xParam ∨ child = yDie

theorem shadowing_scopeTree {children : List Die} (hmem : Shadows children)
    (hapart : children.Pairwise fun child other => ¬(child.isBlock = true ∧ other.isBlock = true)) :
    ScopeTree (shadowing children) := by
  refine .node (fun _ => ⟨⟨0x2000, 0x2100, rfl⟩, fun child hchild hblock => ?_, ?_⟩)
    (fun h => by cases h) fun _ child hchild => ?_
  · intro low high low' high' hrange hrange'
    rcases hmem child hchild with rfl | rfl | rfl
    · cases hrange
      cases hrange'
      decide
    · cases hblock
    · cases hblock
  · exact hapart.imp fun hboth hblock hother => absurd ⟨hblock, hother⟩ hboth
  · rcases hmem child hchild with rfl | rfl | rfl
    · exact innerBlock_scopeTree
    · exact leaf_scopeTree rfl rfl
    · exact leaf_scopeTree rfl rfl

theorem comesTo_leaf {attrs : DieAttrs} (hleaf : (Die.mk attrs []).isBlock = false)
    (hcomes : ComesTo pc (.mk attrs []) path die) : path = [] ∧ die = .mk attrs [] :=
  (comesTo_of_not_enters fun henters => by cases hleaf.symm.trans henters.1).mp hcomes

theorem comesTo_innerBlock (hcomes : ComesTo pc innerBlock path die)
    (hname : DeclaresName "x".toList die) : path = [1] ∧ die = xDie .DW_TAG_variable := by
  cases hcomes with
  | here => cases hname.1
  | @down _ child _ i path _ hchild hrest =>
      match i, hchild with
      | 0, rfl =>
          obtain ⟨rfl, rfl⟩ := comesTo_leaf rfl hrest
          exact absurd hname.2 (by decide)
      | 1, rfl =>
          obtain ⟨rfl, rfl⟩ := comesTo_leaf rfl hrest
          exact ⟨rfl, rfl⟩
      | i + 2, hchild => cases hchild

-- A variable of the name that is reached in the function is that of a block or a parameter.
theorem paths_shadowing {children : List Die} (hmem : Shadows children)
    (hcomes : ComesTo pc (shadowing children) path die) (hname : DeclaresName "x".toList die) :
    ∃ i, path = [i, 1] ∧ children[i]? = some innerBlock ∧ die = xDie .DW_TAG_variable ∨
      path = [i] ∧ children[i]? = some xParam ∧ die = xParam := by
  cases hcomes with
  | here => cases hname.1
  | @down _ child _ i path _ hchild hrest =>
      have hmember : child ∈ children := List.mem_of_getElem? hchild
      rcases hmem child hmember with rfl | rfl | rfl
      · obtain ⟨rfl, rfl⟩ := comesTo_innerBlock hrest hname
        exact ⟨i, .inl ⟨rfl, hchild, rfl⟩⟩
      · obtain ⟨rfl, rfl⟩ := comesTo_leaf rfl hrest
        exact ⟨i, .inr ⟨rfl, hchild, rfl⟩⟩
      · obtain ⟨rfl, rfl⟩ := comesTo_leaf rfl hrest
        exact absurd hname.2 (by decide)

-- The declaration in the block is the one further in, wherever the block stands.
theorem innermost_of_block {children : List Die} {i : Nat} (htree : ScopeTree (shadowing children))
    (hmem : Shadows children) (hblock : children[i]? = some innerBlock) :
    InnermostDecl "x".toList 0x2010 (shadowing children) [i, 1] (xDie .DW_TAG_variable) where
  declared := ⟨[i], innerBlock, 1, rfl, .down rfl hblock (.here _),
    ⟨rfl, 0x2010, 0x2020, rfl, by decide, by decide⟩, rfl, rfl, rfl⟩
  innermost other below hother := by
    obtain ⟨j, ⟨rfl, -⟩ | ⟨rfl, -⟩⟩ :=
      paths_shadowing hmem (hother.comesTo htree) hother.declaresName
    · exact Nat.le_refl 2
    · exact Nat.le_succ 1

theorem block_first_kinds : Shadows [innerBlock, xParam] := by
  simp [Shadows]

theorem param_first_kinds : Shadows [yDie, xParam, innerBlock] := by
  simp [Shadows]

theorem block_first_scopeTree : ScopeTree (shadowing [innerBlock, xParam]) :=
  shadowing_scopeTree block_first_kinds (List.pairwise_pair.mpr fun h => by cases h.2)

theorem param_first_scopeTree : ScopeTree (shadowing [yDie, xParam, innerBlock]) := by
  refine shadowing_scopeTree param_first_kinds (.cons ?_ (List.pairwise_pair.mpr ?_))
  · rintro other - ⟨hblock, -⟩
    cases hblock
  · rintro ⟨hblock, -⟩
    cases hblock

theorem resolves_block_first :
    ResolvesByScope [] "x".toList 0x2010 (shadowing [innerBlock, xParam]) ∧
      ∀ path, GivesPlace [] "x".toList 0x2010 (shadowing [innerBlock, xParam]) (some path) →
        (GivesLive [] "x".toList 0x2010 (shadowing [innerBlock, xParam]) path ↔
          path.getLast? ≠ some 0) := by
  have hinner : InnermostDecl "x".toList 0x2010 (shadowing [innerBlock, xParam]) [0, 1]
      (xDie .DW_TAG_variable) := innermost_of_block block_first_scopeTree block_first_kinds rfl
  obtain ⟨hiff, hlive⟩ := resolves_by_scope_iff [] "x".toList block_first_scopeTree
  refine ⟨hiff.mpr fun path die hcomes hname => ?_, hlive⟩
  obtain ⟨i, ⟨rfl, hchild, rfl⟩ | ⟨rfl, hchild, rfl⟩⟩ :=
    paths_shadowing block_first_kinds hcomes hname
  · match i, hchild with
    | 0, _ => exact .inl hinner
    | 1, hchild => cases hchild
    | i + 2, hchild => cases hchild
  · have hbehind : 0 < i := by
      refine Nat.pos_of_ne_zero fun hzero => ?_
      subst hzero
      cases hchild
    exact .inr ⟨[0, 1], _, hinner.declared.comesTo block_first_scopeTree, hinner,
      .apart hbehind trivial⟩

-- The parameter stands before the block and is taken for the variable in it.
theorem param_shadows_inner :
    let root := shadowing [yDie, xParam, innerBlock]
    ScopeTree root ∧ Contains 0x2010 root ∧
      getLocalVarFromName [] (some "x".toList) 0x2010 root = some (.ok (), some xParam) ∧
      ¬ResolvesByScope [] "x".toList 0x2010 root := by
  intro root
  have hinner : InnermostDecl "x".toList 0x2010 root [2, 1] (xDie .DW_TAG_variable) :=
    innermost_of_block param_first_scopeTree param_first_kinds rfl
  have hwalk : getLocalVarFromName [] (some "x".toList) 0x2010 root =
      some (.ok (), some xParam) := rfl
  refine ⟨param_first_scopeTree, contains_blockDie (by decide) (by decide), hwalk, fun h => ?_⟩
  obtain ⟨path, die, hdecl, hplace⟩ := h.declared ⟨_, _, hinner.declared⟩
  have hlength := hdecl.innermost _ _ hinner.declared
  obtain ⟨i, ⟨rfl, hchild, -⟩ | ⟨rfl, -⟩⟩ := paths_shadowing param_first_kinds
    (hdecl.declared.comesTo param_first_scopeTree) hdecl.declared.declaresName
  · have hnode : nodeAt Die.children root [i, 1] = some (xDie .DW_TAG_variable) :=
      nodeAt_cons_eq_some.mpr ⟨innerBlock, hchild, rfl⟩
    have hfound := hwalk.symm.trans hplace.result
    rw [Option.bind_some, hnode] at hfound
    cases hfound
  · exact absurd hlength (Nat.not_succ_le_self 1)

end Blocks

end VDebugger
