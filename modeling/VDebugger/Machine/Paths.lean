import Mathlib.Data.List.Basic

namespace VDebugger.Machine

section Nodes

variable {α : Type} (children : α → List α)

-- The node that a path of child numbers leads to.
def nodeAt : α → List Nat → Option α
  | a, [] => some a
  | a, i :: path =>
      match (children a)[i]? with
      | none => none
      | some b => nodeAt b path

variable {children} {a b c : α} {path more : List Nat}

@[simp] theorem nodeAt_nil : nodeAt children a [] = some a := rfl

theorem nodeAt_cons {i : Nat} (h : (children a)[i]? = some b) :
    nodeAt children a (i :: path) = nodeAt children b path := by
  simp only [nodeAt, h]

theorem nodeAt_cons_eq_some {i : Nat} :
    nodeAt children a (i :: path) = some c ↔
      ∃ b, (children a)[i]? = some b ∧ nodeAt children b path = some c := by
  cases h : (children a)[i]? with
  | none => simp [nodeAt, h]
  | some b => simp [nodeAt, h]

theorem nodeAt_append (h : nodeAt children a path = some b) :
    nodeAt children a (path ++ more) = nodeAt children b more := by
  induction path generalizing a with
  | nil =>
      cases h
      rfl
  | cons i path ih =>
      obtain ⟨child, hchild, hpath⟩ := nodeAt_cons_eq_some.mp h
      rw [List.cons_append, nodeAt_cons hchild]
      exact ih hpath

-- Each step down a path makes the node smaller.
theorem nodeAt_size {size : α → Nat} (hsize : ∀ a, ∀ b ∈ children a, size b < size a)
    (h : nodeAt children a path = some b) : size b + path.length ≤ size a := by
  induction path generalizing a with
  | nil =>
      cases h
      exact Nat.le_refl _
  | cons i path ih =>
      obtain ⟨child, hchild, hpath⟩ := nodeAt_cons_eq_some.mp h
      have hbelow := ih hpath
      have hchild := hsize a child (List.mem_of_getElem? hchild)
      rw [List.length_cons]
      omega

-- So no node lies below itself.
theorem eq_of_prefix_of_nodeAt {size : α → Nat} (hsize : ∀ a, ∀ b ∈ children a, size b < size a)
    (hwithin : path <+: more) (h : nodeAt children a path = some b)
    (hmore : nodeAt children a more = some b) : path = more := by
  obtain ⟨rest, rfl⟩ := hwithin
  rw [nodeAt_append h] at hmore
  have hbelow := nodeAt_size hsize hmore
  have hrest : rest = [] := List.length_eq_zero_iff.mp (by omega)
  rw [hrest, List.append_nil]

-- The path leads to a node, and every node on the way to it may be entered.
inductive PathThrough (children : α → List α) (enters : α → Prop) : α → List Nat → α → Prop
  | here (a : α) : PathThrough children enters a [] a
  | down {a b c : α} {i : Nat} {path : List Nat} (henters : enters a)
      (hchild : (children a)[i]? = some b) (hrest : PathThrough children enters b path c) :
      PathThrough children enters a (i :: path) c

namespace PathThrough

variable {enters fewer : α → Prop}

theorem nil_iff : PathThrough children enters a [] b ↔ b = a := by
  constructor
  · intro h
    cases h
    rfl
  · rintro rfl
    exact .here b

theorem cons_iff {i : Nat} : PathThrough children enters a (i :: path) c ↔
    enters a ∧ ∃ b, (children a)[i]? = some b ∧ PathThrough children enters b path c := by
  constructor
  · intro h
    cases h with
    | down henters hchild hrest => exact ⟨henters, _, hchild, hrest⟩
  · rintro ⟨henters, b, hchild, hrest⟩
    exact .down henters hchild hrest

theorem nodeAt_eq (h : PathThrough children enters a path b) : nodeAt children a path = some b := by
  induction h with
  | here => rfl
  | down _ hchild _ ih => exact (nodeAt_cons hchild).trans ih

theorem mono (h : PathThrough children fewer a path b) (hsub : ∀ c, fewer c → enters c) :
    PathThrough children enters a path b := by
  induction h with
  | here => exact .here _
  | down henters hchild _ ih => exact .down (hsub _ henters) hchild ih

theorem concat {i : Nat} (h : PathThrough children enters a path b) (henters : enters b)
    (hchild : (children b)[i]? = some c) : PathThrough children enters a (path ++ [i]) c := by
  induction h with
  | here => exact .down henters hchild (.here c)
  | down hfirst hnext _ ih => exact .down hfirst hnext (ih henters hchild)

end PathThrough

-- Of two paths, the first leaves the way of the other for an elder sibling, and goes on so.
inductive Elder (onward : List Nat → Prop) : List Nat → List Nat → Prop
  | apart {i j : Nat} {path more : List Nat} (hlt : i < j) (honward : onward path) :
      Elder onward (i :: path) (j :: more)
  | along (i : Nat) {path more : List Nat} (h : Elder onward path more) :
      Elder onward (i :: path) (i :: more)

namespace Elder

variable {onward : List Nat → Prop} {i j : Nat}

theorem cons_iff : Elder onward (i :: path) (j :: more) ↔
    i < j ∧ onward path ∨ i = j ∧ Elder onward path more := by
  constructor
  · intro h
    cases h with
    | apart hlt honward => exact .inl ⟨hlt, honward⟩
    | along _ h => exact .inr ⟨rfl, h⟩
  · rintro (⟨hlt, honward⟩ | ⟨rfl, h⟩)
    · exact .apart hlt honward
    · exact .along i h

theorem not_nil_right : ¬Elder onward path [] := fun h => by cases h

end Elder

-- In the order of a walk that comes to a node before its children, and to an elder child
-- first.
abbrev Before : List Nat → List Nat → Prop := Elder fun _ => True

-- Two places where a walk turns back are the same or one is before the other.
theorem PathThrough.before_or_before {enters : α → Prop} {d : α}
    (hpath : PathThrough children enters a path b) (hmore : PathThrough children enters a more d)
    (hleaf : ¬enters b) (hleaf' : ¬enters d) :
    path = more ∨ Before path more ∨ Before more path := by
  induction hpath generalizing more with
  | here =>
      cases hmore with
      | here => exact .inl rfl
      | down henters => exact absurd henters hleaf
  | @down a child _ i path henters hchild _ ih =>
      cases hmore with
      | here => exact absurd henters hleaf'
      | @down _ other _ j more _ hother hrest =>
          rcases Nat.lt_trichotomy i j with hlt | rfl | hlt
          · exact .inr (.inl (.apart hlt trivial))
          · obtain rfl : child = other := Option.some_inj.mp (hchild.symm.trans hother)
            rcases ih hrest hleaf with rfl | hbefore | hbefore
            · exact .inl rfl
            · exact .inr (.inl (.along i hbefore))
            · exact .inr (.inr (.along i hbefore))
          · exact .inr (.inr (.apart hlt trivial))

end Nodes

end VDebugger.Machine
