import VDebugger.Machine.Handles
import VDebugger.Var.Params

namespace VDebugger

open Machine Printing

variable {κ σ : Type} {env : Env κ} {var : VarEnv κ} {types : TypeEnv} {mode : VAR_OPTIONS}
  {locInfo : LocInfo} {s : Debugger κ}

-- A DIE that the library has given out goes by the child numbers on the way to it.
abbrev DieEvent : Type := HandleEvent (List Nat)

section Iterator

variable {α τ : Type} [DecidableEq τ]

variable {tagOf : α → DwRes τ} {wanted : τ} {children behind : List (DwRes α)}
  {parent : List Nat} {live : Set (List Nat)} {place start passes : Nat}
  {nextDie stale : Option Nat} {r : DwRes Unit × Option Nat} {after : Set (List Nat)}

-- What a call leaves that looks at the children from `start` on: the pointer to the wanted child,
-- which is live then, or a pointer to nothing that is live.
inductive CallLeaves (tagOf : α → DwRes τ) (wanted : τ) (parent : List Nat)
    (live : Set (List Nat)) (start : Nat) (behind : List (DwRes α)) (stale : Option Nat) :
    DwRes Unit × Option Nat → Set (List Nat) → Prop
  | found {place : Nat} {later : List Nat}
      (hplaces : behind.findIdxs (isWanted tagOf wanted) start = place :: later) :
      CallLeaves tagOf wanted parent live start behind stale (.ok (), some place)
        (insert (parent ++ [place]) live)
  | missing (hplaces : behind.findIdxs (isWanted tagOf wanted) start = []) :
      CallLeaves tagOf wanted parent live start behind stale (.noEntry, stale) live

theorem CallLeaves.skip {child : DwRes α} (h : ¬isWanted tagOf wanted child = true)
    (hleaves : CallLeaves tagOf wanted parent live (start + 1) behind stale r after) :
    CallLeaves tagOf wanted parent live start (child :: behind) stale r after := by
  have hplaces : (child :: behind).findIdxs (isWanted tagOf wanted) start =
      behind.findIdxs (isWanted tagOf wanted) (start + 1) := by
    rw [List.findIdxs_cons, if_neg h]
  cases hleaves with
  | found hfound => exact .found (hplaces.trans hfound)
  | missing hmissing => exact .missing (hplaces.trans hmissing)

section Siblings

variable {child : α} {goOn : Option Nat → Option (DwRes Unit × Option Nat)}

end Siblings

end Iterator

section Handler

end Handler

section Same

variable {subProgDie die : Die} {fparam : Option Nat}

end Same

section Scope

variable {t : Debugger κ} {die : Die} {pc : UWORD} {found : Die × UWORD × LocInfo}

-- The function's DIE is known, but not where its frame is.
def NoFrame (env : Env κ) (var : VarEnv κ) (s : Debugger κ) : Prop :=
  ∃ die pc locInfo t, stoppedSubProg env var s = (.ok (some die, pc, locInfo), t) ∧
    ∃ code, (varLocation var locInfo (some die) .DW_AT_frame_base t).1 = .error code

-- What comes of the function and its frame, with the events up to there.
inductive ScopeEvents (env : Env κ) (var : VarEnv κ) (s : Debugger κ) :
    Outcome (Die × UWORD × LocInfo) → List DieEvent → Prop
  | known {found : Die × UWORD × LocInfo} (hframe : ¬NoFrame env var s) :
      ScopeEvents env var s (.ok found) [.made [], .used []]
  | noFrame {code : Int} (hframe : NoFrame env var s) :
      ScopeEvents env var s (.error code) [.made [], .used []]
  | noFunction {code : Int} (hframe : ¬NoFrame env var s) :
      ScopeEvents env var s (.error code) []
  | pending (events : List DieEvent) : ScopeEvents env var s .pending events

theorem made_function : Lifetimes ∅ [HandleEvent.made ([] : List Nat), .used []] {[]} := by
  refine .made (Set.notMem_empty _) (.used (Set.mem_insert _ _) ?_)
  rw [insert_empty_eq]
  exact .done _

theorem ScopeEvents.failed {events : List DieEvent} {code : Int}
    (h : ScopeEvents env var s (.error code) events) :
    (Lifetimes ∅ events ∅ ↔ ¬NoFrame env var s) ∧
      (NoFrame env var s → Lifetimes ∅ events {[]}) := by
  cases h with
  | noFrame hframe =>
      have hleft : ¬Lifetimes ∅ [HandleEvent.made ([] : List Nat), .used []] ∅ := fun hlives =>
        Set.singleton_ne_empty _ (made_function.unique hlives)
      exact ⟨iff_of_false hleft (not_not_intro hframe), fun _ => made_function⟩
  | noFunction hframe =>
      exact ⟨iff_of_true (.done ∅) hframe, fun h => absurd h hframe⟩

end Scope

section Loop

variable {subProgDie die : Die} {fparam : Option Nat} {place : Nat}

-- The child that is freed again behind the loop.
def FreesTwice (children : List Die) : Prop :=
  2 ≤ children.length ∧ children.getLast?.any fun last => !isFormalParam last

instance (children : List Die) : Decidable (FreesTwice children) :=
  inferInstanceAs (Decidable (_ ∧ _))

-- How the loop ends: both DIEs are gone, or the last child has been freed once more then.
def LoopLives (children : List Die) (held : Set (List Nat)) (res : Outcome Unit)
    (events : List DieEvent) : Prop :=
  match res with
  | .ok () =>
      if FreesTwice children then
        ∃ before, events = before ++ [.freed [children.length - 1]] ∧ Lifetimes held before ∅
      else Lifetimes held events ∅
  | .error _ => Lifetimes held events ∅
  | .pending => ∃ after, Lifetimes held events after

theorem LoopLives.behind {children : List Die} {held mid : Set (List Nat)} {res : Outcome Unit}
    {events more : List DieEvent} (hfirst : Lifetimes held events mid)
    (h : LoopLives children mid res more) : LoopLives children held res (events ++ more) := by
  unfold LoopLives at h ⊢
  rcases res with _ | _ | _ <;> dsimp only at h ⊢
  · split_ifs at h ⊢ with htwice
    · obtain ⟨before, rfl, hbefore⟩ := h
      exact ⟨events ++ before, (List.append_assoc ..).symm, hfirst.append hbefore⟩
    · exact hfirst.append h
  · exact hfirst.append h
  · exact h.imp fun _ hmore => hfirst.append hmore

end Loop

section Whole

variable {t : Debugger κ} {die : Die} {pc : UWORD} {funcName : CString}

end Whole

end VDebugger
