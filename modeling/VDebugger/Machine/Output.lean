import VDebugger.Machine.Action

namespace VDebugger.Machine

variable {σ χ α β : Type}

-- A call that also writes: the state, and the text so far.
abbrev Printing (σ χ α : Type) : Type := Action (σ × List χ) α

namespace Printing

-- A call that writes nothing.
def quiet (x : Action σ α) : Printing σ χ α := fun s => ((x s.1).1, (x s.1).2, s.2)

def write (text : List χ) : Printing σ χ Unit := Action.change fun s => (s.1, s.2 ++ text)

-- A call that writes nothing unless it fails.
def quietOr (x : Action σ α) (text : List χ) : Printing σ χ α := fun s =>
  match x s.1 with
  | (.ok a, t) => (.ok a, t, s.2)
  | (.error code, t) => (.error code, t, s.2 ++ text)
  | (.pending, t) => (.pending, t, s.2)

-- The call without its text.
def silent (x : Printing σ χ α) : Action σ α := fun s => ((x (s, [])).1, (x (s, [])).2.1)

section Keeps

variable {rel : σ → σ → Prop}

def KeepsState (rel : σ → σ → Prop) (x : Printing σ χ α) : Prop :=
  Action.Keeps (fun s t => rel s.1 t.1) x

namespace KeepsState

theorem bind (htrans : ∀ s t u, rel s t → rel t u → rel s u) {x : Printing σ χ α}
    {f : α → Printing σ χ β} (hx : x.KeepsState rel) (hf : ∀ a, (f a).KeepsState rel) :
    KeepsState rel (x >>= f) :=
  Action.Keeps.bind (fun s t u => htrans s.1 t.1 u.1) hx hf

theorem quiet {x : Action σ α} (h : x.Keeps rel) :
    (Printing.quiet x : Printing σ χ α).KeepsState rel := fun s => h s.1

theorem write (hrefl : ∀ s, rel s s) (text : List χ) :
    (Printing.write text : Printing σ χ Unit).KeepsState rel := fun s => hrefl s.1

theorem silent {x : Printing σ χ α} (h : x.KeepsState rel) : x.silent.Keeps rel :=
  fun s => h (s, [])

end KeepsState

end Keeps

section Shows

variable {inv : σ → Prop}

-- From a state that the invariant holds of: the invariant is kept, and the text that has been
-- written when the call ends is as `spec` says.
def Shows (inv : σ → Prop) (x : Printing σ χ α) (spec : Outcome α → List χ → Prop) : Prop :=
  ∀ s out, inv s → inv (x (s, out)).2.1 ∧
    ∃ text, (x (s, out)).2.2 = out ++ text ∧ spec (x (s, out)).1 text

namespace Shows

variable {x : Printing σ χ α} {f : α → Printing σ χ β} {spec other : Outcome α → List χ → Prop}

theorem imp (h : x.Shows inv spec) (himp : ∀ res text, spec res text → other res text) :
    x.Shows inv other := by
  intro s out hs
  obtain ⟨hinv, text, hout, hspec⟩ := h s out hs
  exact ⟨hinv, text, hout, himp _ _ hspec⟩

theorem quiet {x : Action σ α} (h : x.Preserves inv) :
    Shows inv (Printing.quiet x : Printing σ χ α) fun res text =>
      text = [] ∧ ∃ s, inv s ∧ (x s).1 = res :=
  fun s out hs => ⟨h s hs, [], (List.append_nil out).symm, rfl, s, hs, rfl⟩

theorem quietOr {x : Action σ α} (h : x.Preserves inv) (text : List χ) :
    Shows inv (Printing.quietOr x text : Printing σ χ α) fun res shown =>
      (∃ code, res = .error code) ∧ shown = text ∨ (∀ code, res ≠ .error code) ∧ shown = [] := by
  intro s out hs
  have hinv := h s hs
  unfold Printing.quietOr
  dsimp only
  rcases hrun : x s with ⟨_ | code | _, t⟩ <;> rw [hrun] at hinv
  · exact ⟨hinv, [], (List.append_nil out).symm, .inr ⟨by simp, rfl⟩⟩
  · exact ⟨hinv, text, rfl, .inl ⟨⟨code, rfl⟩, rfl⟩⟩
  · exact ⟨hinv, [], (List.append_nil out).symm, .inr ⟨by simp, rfl⟩⟩

theorem write (text : List χ) :
    Shows inv (Printing.write text : Printing σ χ Unit) fun res shown =>
      res = .ok () ∧ shown = text :=
  fun _ _ hs => ⟨hs, text, rfl, rfl, rfl⟩

theorem pure (a : α) :
    Shows inv (Pure.pure a : Printing σ χ α) fun res text => res = .ok a ∧ text = [] :=
  fun _ out hs => ⟨hs, [], (List.append_nil out).symm, rfl, rfl⟩

theorem fail (code : Int) :
    Shows inv (Action.fail code : Printing σ χ α) fun res text => res = .error code ∧ text = [] :=
  fun _ out hs => ⟨hs, [], (List.append_nil out).symm, rfl, rfl⟩

theorem block :
    Shows inv (Action.block : Printing σ χ α) fun res text => res = .pending ∧ text = [] :=
  fun _ out hs => ⟨hs, [], (List.append_nil out).symm, rfl, rfl⟩

-- One text stands behind the other, unless the first call does not come to a value.
theorem bind {g : α → Outcome β → List χ → Prop} {r : Outcome β → List χ → Prop}
    (hx : x.Shows inv spec) (hf : ∀ a, (f a).Shows inv (g a))
    (hok : ∀ a res text more, spec (.ok a) text → g a res more → r res (text ++ more))
    (herror : ∀ code text, spec (.error code) text → r (.error code) text)
    (hpending : ∀ text, spec .pending text → r .pending text) :
    Shows inv (x >>= f) r := by
  intro s out hs
  obtain ⟨hinv, text, hout, hspec⟩ := hx s out hs
  rw [Action.bind_apply]
  rcases hrun : x (s, out) with ⟨a | code | _, t⟩ <;> rw [hrun] at hinv hout hspec
  · obtain ⟨hlast, more, hmore, hnext⟩ := hf a t.1 t.2 hinv
    refine ⟨hlast, text ++ more, ?_, hok a _ text more hspec hnext⟩
    rw [← List.append_assoc, ← hout]
    exact hmore
  · exact ⟨hinv, text, hout, herror code text hspec⟩
  · exact ⟨hinv, text, hout, hpending text hspec⟩

end Shows

end Shows

section Gives

variable {x : Printing σ χ α} {f : α → Printing σ χ β} {a : α} {b : β} {text more : List χ}

-- The value and the text of a call that the state has no part in.
def Gives (x : Printing σ χ α) (a : α) (text : List χ) : Prop :=
  ∀ s out, x (s, out) = (.ok a, s, out ++ text)

namespace Gives

theorem pure (a : α) : (Pure.pure a : Printing σ χ α).Gives a [] :=
  fun s out => by rw [List.append_nil]; rfl

theorem write (text : List χ) : (Printing.write text : Printing σ χ Unit).Gives () text :=
  fun _ _ => rfl

theorem bind (hx : x.Gives a text) (hf : (f a).Gives b more) :
    Gives (x >>= f) b (text ++ more) := by
  intro s out
  rw [Action.bind_of_ok (hx s out), hf, List.append_assoc]

theorem shows {inv : σ → Prop} (h : x.Gives a text) :
    Shows inv x fun res shown => res = .ok a ∧ shown = text := by
  intro s out hs
  rw [h s out]
  exact ⟨hs, text, rfl, rfl, rfl⟩

end Gives

end Gives

section Alike

variable {ω : Type} {x : Printing σ χ α} {y : Printing σ ω α} {f : α → Printing σ χ β}
  {g : α → Printing σ ω β}

-- Two calls that do the same to the state and end in the same way, whatever each of them writes.
def Alike (x : Printing σ χ α) (y : Printing σ ω α) : Prop :=
  ∀ s out shown, (x (s, out)).1 = (y (s, shown)).1 ∧ (x (s, out)).2.1 = (y (s, shown)).2.1

namespace Alike

theorem quiet (x : Action σ α) :
    Alike (Printing.quiet x : Printing σ χ α) (Printing.quiet x : Printing σ ω α) :=
  fun _ _ _ => ⟨rfl, rfl⟩

theorem quietOr (x : Action σ α) (text : List χ) :
    Alike (Printing.quietOr x text) (Printing.quiet x : Printing σ ω α) := by
  intro s out shown
  unfold Printing.quietOr Printing.quiet
  dsimp only
  rcases x s with ⟨_ | _ | _, t⟩ <;> exact ⟨rfl, rfl⟩

theorem write (text : List χ) (shown : List ω) :
    Alike (Printing.write text : Printing σ χ Unit) (Printing.write shown) :=
  fun _ _ _ => ⟨rfl, rfl⟩

theorem pure (a : α) : Alike (Pure.pure a : Printing σ χ α) (Pure.pure a : Printing σ ω α) :=
  fun _ _ _ => ⟨rfl, rfl⟩

theorem fail (code : Int) :
    Alike (Action.fail code : Printing σ χ α) (Action.fail code : Printing σ ω α) :=
  fun _ _ _ => ⟨rfl, rfl⟩

theorem block : Alike (Action.block : Printing σ χ α) (Action.block : Printing σ ω α) :=
  fun _ _ _ => ⟨rfl, rfl⟩

theorem bind (hx : x.Alike y) (hf : ∀ a, (f a).Alike (g a)) : Alike (x >>= f) (y >>= g) := by
  intro s out shown
  obtain ⟨hres, hstate⟩ := hx s out shown
  rw [Action.bind_apply, Action.bind_apply]
  rcases hrun : x (s, out) with ⟨_ | _ | _, t⟩ <;>
    rcases hother : y (s, shown) with ⟨_ | _ | _, u⟩ <;> rw [hrun, hother] at hres hstate <;>
    cases hres
  · obtain ⟨t, out⟩ := t
    obtain ⟨u, shown⟩ := u
    cases hstate
    exact hf _ t out shown
  · exact ⟨rfl, hstate⟩
  · exact ⟨rfl, hstate⟩

-- Something is written behind the call on one side.
theorem behind {x : Printing σ χ Unit} {y : Printing σ ω Unit} (hx : x.Alike y)
    (text : List χ) : Alike (do x; Printing.write text) y := by
  intro s out shown
  obtain ⟨hres, hstate⟩ := hx s out shown
  rw [Action.bind_apply]
  rcases hrun : x (s, out) with ⟨_ | _ | _, t⟩ <;> rw [hrun] at hres hstate
  · exact ⟨hres, hstate⟩
  · exact ⟨hres, hstate⟩
  · exact ⟨hres, hstate⟩

-- A call on one side alone.
theorem left {c : β} {text : List χ} {f : β → Printing σ χ α} {x : Printing σ χ β}
    (hx : x.Gives c text) (hf : (f c).Alike y) : Alike (x >>= f) y := by
  intro s out shown
  rw [Action.bind_of_ok (hx s out)]
  exact hf s _ shown

end Alike

end Alike

end Printing

end VDebugger.Machine
