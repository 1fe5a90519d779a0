import Mathlib.Order.BooleanAlgebra.Set

namespace VDebugger.Machine

-- What is done with the handles that a library gives out.
inductive HandleEvent (η : Type) where
  | made (handle : η)
  | used (handle : η)
  | freed (handle : η)
  deriving DecidableEq, Repr

variable {η : Type} {live mid after other frame : Set η} {events more : List (HandleEvent η)}
  {handle : η}

-- Only live handles are used or freed, and only new ones are made. `after` are the handles
-- that are live in the end.
inductive Lifetimes : Set η → List (HandleEvent η) → Set η → Prop
  | done (live : Set η) : Lifetimes live [] live
  | made {live after : Set η} {events : List (HandleEvent η)} {handle : η} (hnew : handle ∉ live)
      (hrest : Lifetimes (insert handle live) events after) :
      Lifetimes live (.made handle :: events) after
  | used {live after : Set η} {events : List (HandleEvent η)} {handle : η} (hlive : handle ∈ live)
      (hrest : Lifetimes live events after) : Lifetimes live (.used handle :: events) after
  | freed {live after : Set η} {events : List (HandleEvent η)} {handle : η} (hlive : handle ∈ live)
      (hrest : Lifetimes (live \ {handle}) events after) :
      Lifetimes live (.freed handle :: events) after

namespace Lifetimes

theorem append (h : Lifetimes live events mid) (hmore : Lifetimes mid more after) :
    Lifetimes live (events ++ more) after := by
  induction h with
  | done => exact hmore
  | made hnew _ ih => exact .made hnew (ih hmore)
  | used hlive _ ih => exact .used hlive (ih hmore)
  | freed hlive _ ih => exact .freed hlive (ih hmore)

theorem split (h : Lifetimes live (events ++ more) after) :
    ∃ mid, Lifetimes live events mid ∧ Lifetimes mid more after := by
  induction events generalizing live with
  | nil => exact ⟨live, .done live, h⟩
  | cons event events ih =>
      cases h with
      | made hnew hrest =>
          obtain ⟨mid, hfirst, hlast⟩ := ih hrest
          exact ⟨mid, .made hnew hfirst, hlast⟩
      | used hlive hrest =>
          obtain ⟨mid, hfirst, hlast⟩ := ih hrest
          exact ⟨mid, .used hlive hfirst, hlast⟩
      | freed hlive hrest =>
          obtain ⟨mid, hfirst, hlast⟩ := ih hrest
          exact ⟨mid, .freed hlive hfirst, hlast⟩

theorem unique (h : Lifetimes live events after) (hother : Lifetimes live events other) :
    after = other := by
  induction h with
  | done =>
      cases hother
      rfl
  | made _ _ ih =>
      cases hother with
      | made _ hrest => exact ih hrest
  | used _ _ ih =>
      cases hother with
      | used _ hrest => exact ih hrest
  | freed _ _ ih =>
      cases hother with
      | freed _ hrest => exact ih hrest

theorem singleton_freed (hlive : handle ∈ live) :
    Lifetimes live [.freed handle] (live \ {handle}) := .freed hlive (.done _)

theorem freed_last (hnew : handle ∉ live) :
    Lifetimes (insert handle live) [.freed handle] live := by
  have h := singleton_freed (Set.mem_insert handle live)
  rwa [Set.insert_sdiff_self_of_notMem hnew] at h

theorem used_only (hlive : handle ∈ live) (h : ∀ event ∈ events, event = .used handle) :
    Lifetimes live events live := by
  induction events with
  | nil => exact .done live
  | cons event events ih =>
      obtain ⟨rfl, hrest⟩ := List.forall_mem_cons.mp h
      exact .used hlive (ih hrest)

end Lifetimes

end VDebugger.Machine
