namespace VDebugger.Machine

-- What a call gives: a value, a nonzero result code, or nothing yet (the call
-- is still waiting when the observation ends).
inductive Outcome (α : Type) where
  | ok (value : α)
  | error (code : Int)
  | pending
  deriving DecidableEq, Repr

def Outcome.value? {α : Type} : Outcome α → Option α
  | .ok value => some value
  | .error _ | .pending => none

-- A call that reads and changes a state. Unlike an exception, a nonzero
-- result keeps the state reached so far.
def Action (σ α : Type) : Type := σ → Outcome α × σ

namespace Action

variable {σ α β : Type}

def bind (x : Action σ α) (f : α → Action σ β) : Action σ β := fun s =>
  match x s with
  | (.ok a, t) => f a t
  | (.error code, t) => (.error code, t)
  | (.pending, t) => (.pending, t)

instance : Monad (Action σ) where
  pure a := fun s => (.ok a, s)
  bind := bind

-- `res = x; if (res) return res;` is the monad's own sequencing.
def fail (code : Int) : Action σ α := fun s => (.error code, s)

-- `if (c) return code;`
def failIf (c : Prop) [Decidable c] (code : Int) : Action σ Unit := fun s =>
  (if c then .error code else .ok (), s)

def block : Action σ α := fun s => (.pending, s)

def fetch : Action σ σ := fun s => (.ok s, s)

def change (f : σ → σ) : Action σ Unit := fun s => (.ok (), f s)

-- `if (x) return code;`
def orFail (x : Action σ α) (code : Int) : Action σ α := fun s =>
  match x s with
  | (.ok a, t) => (.ok a, t)
  | (.error _, t) => (.error code, t)
  | (.pending, t) => (.pending, t)

-- The call with its result dropped: `none` stands for a nonzero result.
def attempt (x : Action σ α) : Action σ (Option α) := fun s =>
  match x s with
  | (.ok a, t) => (.ok (some a), t)
  | (.error _, t) => (.ok none, t)
  | (.pending, t) => (.pending, t)

@[simp] theorem pure_apply (a : α) (s : σ) : (pure a : Action σ α) s = (.ok a, s) := rfl

@[simp] theorem fail_apply (code : Int) (s : σ) :
    (fail code : Action σ α) s = (.error code, s) := rfl

theorem failIf_of_not {c : Prop} [Decidable c] (h : ¬c) (code : Int) (s : σ) :
    failIf c code s = (.ok (), s) := by
  simp only [failIf, if_neg h]

theorem failIf_of {c : Prop} [Decidable c] (h : c) (code : Int) (s : σ) :
    failIf c code s = (.error code, s) := by
  simp only [failIf, if_pos h]

theorem failIf_eq_ok {c : Prop} [Decidable c] {code : Int} {s t : σ} {a : Unit} :
    failIf c code s = (.ok a, t) ↔ ¬c ∧ s = t := by
  by_cases h : c <;> simp [failIf, h]

@[simp] theorem fetch_apply (s : σ) : (fetch : Action σ σ) s = (.ok s, s) := rfl

@[simp] theorem change_apply (f : σ → σ) (s : σ) : change f s = (.ok (), f s) := rfl

theorem bind_apply (x : Action σ α) (f : α → Action σ β) (s : σ) :
    (x >>= f) s = match x s with
      | (.ok a, t) => f a t
      | (.error code, t) => (.error code, t)
      | (.pending, t) => (.pending, t) := rfl

theorem bind_of_ok {x : Action σ α} {s t : σ} {a : α} (h : x s = (.ok a, t))
    (f : α → Action σ β) : (x >>= f) s = f a t := by
  rw [bind_apply, h]

theorem bind_of_error {x : Action σ α} {s t : σ} {code : Int} (h : x s = (.error code, t))
    (f : α → Action σ β) : (x >>= f) s = (.error code, t) := by
  rw [bind_apply, h]

theorem bind_of_pending {x : Action σ α} {s t : σ} (h : x s = (.pending, t))
    (f : α → Action σ β) : (x >>= f) s = (.pending, t) := by
  rw [bind_apply, h]

theorem bind_assoc {γ : Type} (x : Action σ α) (f : α → Action σ β) (g : β → Action σ γ) :
    x >>= f >>= g = x >>= fun a => f a >>= g := by
  funext s
  rcases hx : x s with ⟨_ | _ | _, t⟩
  · rw [bind_of_ok hx, bind_apply, bind_of_ok hx, bind_apply]
  · rw [bind_of_error hx, bind_of_error (bind_of_error hx f)]
  · rw [bind_of_pending hx, bind_of_pending (bind_of_pending hx f)]

theorem bind_pure_state (x : Action σ α) (b : β) (s : σ) :
    ((x >>= fun _ => pure b) s).2 = (x s).2 := by
  rw [bind_apply]
  rcases x s with ⟨_ | _ | _, t⟩ <;> rfl

theorem bind_eq_ok {x : Action σ α} {f : α → Action σ β} {s u : σ} {b : β} :
    (x >>= f) s = (.ok b, u) ↔ ∃ a t, x s = (.ok a, t) ∧ f a t = (.ok b, u) := by
  constructor
  · intro h
    rw [bind_apply] at h
    rcases hx : x s with ⟨a | _ | _, t⟩ <;> rw [hx] at h
    · exact ⟨a, t, rfl, h⟩
    · cases h
    · cases h
  · rintro ⟨a, t, hx, hf⟩
    rw [bind_of_ok hx, hf]

theorem bind_pending {x : Action σ α} {s : σ} (h : (x s).1 = .pending) (f : α → Action σ β) :
    ((x >>= f) s).1 = .pending := by
  rcases hrun : x s with ⟨_ | _ | _, t⟩ <;> rw [hrun] at h
  · cases h
  · cases h
  · rw [bind_of_pending hrun]

-- A sequence comes to an end where both of its parts do.
theorem bind_ne_pending {x : Action σ α} {f : α → Action σ β} {s : σ} (hx : (x s).1 ≠ .pending)
    (hf : ∀ a t, x s = (.ok a, t) → (f a t).1 ≠ .pending) : ((x >>= f) s).1 ≠ .pending := by
  rcases hrun : x s with ⟨a | code | _, t⟩ <;> rw [hrun] at hx
  · rw [bind_of_ok hrun]
    exact hf a t hrun
  · rw [bind_of_error hrun]
    exact fun h => nomatch h
  · exact absurd rfl hx

theorem bind_ne_error {x : Action σ α} {f : α → Action σ β} {s : σ} {code : Int}
    (hx : (x s).1 ≠ .error code) (hf : ∀ a t, x s = (.ok a, t) → (f a t).1 ≠ .error code) :
    ((x >>= f) s).1 ≠ .error code := by
  rcases hrun : x s with ⟨a | other | _, t⟩ <;> rw [hrun] at hx
  · rw [bind_of_ok hrun]
    exact hf a t hrun
  · rw [bind_of_error hrun]
    exact fun h => hx (congrArg Outcome.error (Outcome.error.inj h))
  · rw [bind_of_pending hrun]
    exact fun h => nomatch h

theorem orFail_eq_ok {x : Action σ α} {code : Int} {s t : σ} {a : α} :
    x.orFail code s = (.ok a, t) ↔ x s = (.ok a, t) := by
  unfold orFail
  rcases hx : x s with ⟨_ | _ | _, u⟩ <;> simp

theorem orFail_of_error {x : Action σ α} {s t : σ} {res : Int} (h : x s = (.error res, t))
    (code : Int) : x.orFail code s = (.error code, t) := by
  simp only [orFail, h]

theorem orFail_pending_iff {x : Action σ α} {code : Int} {s : σ} :
    (x.orFail code s).1 = .pending ↔ (x s).1 = .pending := by
  unfold orFail
  rcases x s with ⟨_ | _ | _, u⟩ <;> simp

-- A relation between the states before and after that holds whatever the outcome.
def Keeps (rel : σ → σ → Prop) (x : Action σ α) : Prop := ∀ s, rel s (x s).2

theorem Keeps.bind {rel : σ → σ → Prop} (htrans : ∀ s t u, rel s t → rel t u → rel s u)
    {x : Action σ α} {f : α → Action σ β} (hx : x.Keeps rel) (hf : ∀ a, (f a).Keeps rel) :
    (x >>= f).Keeps rel := by
  intro s
  have h := hx s
  rw [bind_apply]
  rcases hs : x s with ⟨_ | _ | _, t⟩ <;> rw [hs] at h
  · exact htrans _ _ _ h (hf _ t)
  · exact h
  · exact h

theorem Keeps.orFail {rel : σ → σ → Prop} {x : Action σ α} (hx : x.Keeps rel) (code : Int) :
    (x.orFail code).Keeps rel := by
  intro s
  have hs := hx s
  unfold Action.orFail
  rcases h : x s with ⟨_ | _ | _, t⟩ <;> rwa [h] at hs

theorem Keeps.attempt {rel : σ → σ → Prop} {x : Action σ α} (hx : x.Keeps rel) :
    x.attempt.Keeps rel := by
  intro s
  have hs := hx s
  unfold Action.attempt
  rcases h : x s with ⟨_ | _ | _, t⟩ <;> rwa [h] at hs

-- What holds between the states before and after the second part of a sequence.
theorem Keeps.after {rel : σ → σ → Prop} (hrefl : ∀ s, rel s s) {x : Action σ α}
    {f : α → Action σ β} (hf : ∀ a, (f a).Keeps rel) (s : σ) : rel (x s).2 ((x >>= f) s).2 := by
  rw [bind_apply]
  rcases x s with ⟨_ | _ | _, t⟩
  · exact hf _ t
  · exact hrefl t
  · exact hrefl t

-- An invariant that holds afterwards, whatever the outcome, if it holds before.
def Preserves (inv : σ → Prop) (x : Action σ α) : Prop := x.Keeps fun s t => inv s → inv t

namespace Preserves

variable {inv : σ → Prop} {x : Action σ α}

theorem bind {f : α → Action σ β} (hx : x.Preserves inv) (hf : ∀ a, (f a).Preserves inv) :
    (x >>= f).Preserves inv :=
  Keeps.bind (fun _ _ _ h h' hs => h' (h hs)) hx hf

theorem pure (a : α) : (Pure.pure a : Action σ α).Preserves inv := fun _ h => h

theorem fail (code : Int) : (Action.fail code : Action σ α).Preserves inv := fun _ h => h

theorem block : (Action.block : Action σ α).Preserves inv := fun _ h => h

theorem fetch : (Action.fetch : Action σ σ).Preserves inv := fun _ h => h

theorem failIf (c : Prop) [Decidable c] (code : Int) : (Action.failIf c code).Preserves inv :=
  fun _ h => h

theorem orFail (hx : x.Preserves inv) (code : Int) : (x.orFail code).Preserves inv :=
  Keeps.orFail hx code

theorem attempt (hx : x.Preserves inv) : x.attempt.Preserves inv := Keeps.attempt hx

end Preserves

-- The call comes to a value or a result code.
def Returns (x : Action σ α) : Prop := ∀ s, (x s).1 ≠ .pending

namespace Returns

variable {x : Action σ α}

theorem bind {f : α → Action σ β} (hx : x.Returns) (hf : ∀ a, (f a).Returns) :
    (x >>= f).Returns := by
  intro s
  have hs := hx s
  rw [bind_apply]
  rcases hrun : x s with ⟨_ | _ | _, t⟩ <;> rw [hrun] at hs
  · exact hf _ t
  · exact fun h => nomatch h
  · exact absurd rfl hs

theorem pure (a : α) : (Pure.pure a : Action σ α).Returns := fun _ h => nomatch h

theorem fail (code : Int) : (Action.fail code : Action σ α).Returns := fun _ h => nomatch h

theorem fetch : (Action.fetch : Action σ σ).Returns := fun _ h => nomatch h

theorem change (f : σ → σ) : (Action.change f).Returns := fun _ h => nomatch h

theorem failIf (c : Prop) [Decidable c] (code : Int) :
    (Action.failIf c code : Action σ Unit).Returns := by
  intro s
  by_cases h : c <;> simp [Action.failIf, h]

theorem orFail (hx : x.Returns) (code : Int) : (x.orFail code).Returns :=
  fun s h => hx s (orFail_pending_iff.mp h)

theorem attempt (hx : x.Returns) : x.attempt.Returns := by
  intro s
  have hs := hx s
  unfold Action.attempt
  rcases hrun : x s with ⟨_ | _ | _, t⟩ <;> rw [hrun] at hs
  · exact fun h => nomatch h
  · exact fun h => nomatch h
  · exact absurd rfl hs

-- A sequence whose rest returns waits where its start does.
theorem bind_pending_iff {f : α → Action σ β} (hf : ∀ a, (f a).Returns) (s : σ) :
    ((x >>= f) s).1 = .pending ↔ (x s).1 = .pending := by
  rw [bind_apply]
  rcases x s with ⟨_ | _ | _, t⟩
  · exact iff_of_false (hf _ t) fun h => nomatch h
  · exact iff_of_false (fun h => nomatch h) fun h => nomatch h
  · exact iff_of_true rfl rfl

end Returns

-- A call that fails leaves the state as the relation says.
def Atomic (rel : σ → σ → Prop) (x : Action σ α) : Prop :=
  ∀ s t code, x s = (.error code, t) → rel s t

theorem Keeps.atomic {rel : σ → σ → Prop} {x : Action σ α} (hx : x.Keeps rel) : x.Atomic rel := by
  intro s t code h
  have hs := hx s
  rwa [h] at hs

-- What is kept may come before what changes the state at its last point of failure.
theorem Atomic.bind {rel : σ → σ → Prop} (htrans : ∀ s t u, rel s t → rel t u → rel s u)
    {x : Action σ α} {f : α → Action σ β} (hx : x.Keeps rel) (hf : ∀ a, (f a).Atomic rel) :
    (x >>= f).Atomic rel := by
  intro s u code h
  have hs := hx s
  rw [bind_apply] at h
  rcases hrun : x s with ⟨_ | _ | _, t⟩ <;> rw [hrun] at h hs
  · exact htrans s t u hs (hf _ t u code h)
  · cases h
    exact hs
  · exact nomatch h

-- Every result code that the call gives is nonzero.
def NonzeroCodes (x : Action σ α) : Prop := ∀ s code, (x s).1 = .error code → code ≠ 0

namespace NonzeroCodes

variable {x : Action σ α}

theorem bind {f : α → Action σ β} (hx : x.NonzeroCodes) (hf : ∀ a, (f a).NonzeroCodes) :
    (x >>= f).NonzeroCodes := by
  intro s code h
  have hs := hx s
  rw [bind_apply] at h
  rcases hrun : x s with ⟨_ | _ | _, t⟩ <;> rw [hrun] at h hs
  · exact hf _ t code h
  · cases h
    exact hs _ rfl
  · exact nomatch h

theorem pure (a : α) : (Pure.pure a : Action σ α).NonzeroCodes := fun _ _ h => nomatch h

theorem fail {code : Int} (h : code ≠ 0) : (Action.fail code : Action σ α).NonzeroCodes := by
  intro s found hfound
  cases hfound
  exact h

theorem fetch : (Action.fetch : Action σ σ).NonzeroCodes := fun _ _ h => nomatch h

theorem change (f : σ → σ) : (Action.change f).NonzeroCodes := fun _ _ h => nomatch h

theorem failIf {c : Prop} [Decidable c] {code : Int} (h : code ≠ 0) :
    (Action.failIf c code : Action σ Unit).NonzeroCodes := by
  intro s found hfound
  by_cases hc : c
  · rw [failIf_of hc] at hfound
    cases hfound
    exact h
  · rw [failIf_of_not hc] at hfound
    exact nomatch hfound

theorem orFail (x : Action σ α) {code : Int} (h : code ≠ 0) : (x.orFail code).NonzeroCodes := by
  intro s found hfound
  unfold Action.orFail at hfound
  rcases hrun : x s with ⟨_ | _ | _, t⟩ <;> rw [hrun] at hfound <;> cases hfound
  exact h

theorem attempt (x : Action σ α) : x.attempt.NonzeroCodes := by
  intro s found hfound
  unfold Action.attempt at hfound
  rcases hrun : x s with ⟨_ | _ | _, t⟩ <;> rw [hrun] at hfound <;> cases hfound

end NonzeroCodes

-- From a state that `pre` holds of the call comes to a value, in a state as `post` says.
def Completes (pre : σ → Prop) (x : Action σ α) (post : α → σ → Prop) : Prop :=
  ∀ s, pre s → ∃ a t, x s = (.ok a, t) ∧ post a t

namespace Completes

variable {pre : σ → Prop} {x : Action σ α} {post : α → σ → Prop}

theorem bind {f : α → Action σ β} {last : β → σ → Prop} (hx : x.Completes pre post)
    (hf : ∀ a, (f a).Completes (post a) last) : (x >>= f).Completes pre last := by
  intro s hs
  obtain ⟨a, t, hrun, ht⟩ := hx s hs
  rw [bind_of_ok hrun]
  exact hf a t ht

theorem pure {a : α} (h : ∀ s, pre s → post a s) : (Pure.pure a : Action σ α).Completes pre post :=
  fun s hs => ⟨a, s, rfl, h s hs⟩

theorem fetch {f : σ → Action σ β} {last : β → σ → Prop}
    (h : ∀ s, pre s → (f s).Completes (fun t => t = s) last) :
    (Action.fetch >>= f).Completes pre last := by
  intro s hs
  rw [bind_of_ok (fetch_apply s)]
  exact h s hs s rfl

theorem change {f : σ → σ} {last : Unit → σ → Prop} (h : ∀ s, pre s → last () (f s)) :
    (Action.change f).Completes pre last := fun s hs => ⟨(), f s, rfl, h s hs⟩

theorem weaken {before : σ → Prop} {after : α → σ → Prop} (hx : x.Completes pre post)
    (hpre : ∀ s, before s → pre s) (hpost : ∀ a s, post a s → after a s) :
    x.Completes before after := by
  intro s hs
  obtain ⟨a, t, hrun, ht⟩ := hx s (hpre s hs)
  exact ⟨a, t, hrun, hpost a t ht⟩

theorem ite {c : Prop} [Decidable c] {y : Action σ α} (hx : c → x.Completes pre post)
    (hy : ¬c → y.Completes pre post) : (if c then x else y).Completes pre post := by
  by_cases h : c
  · rw [if_pos h]
    exact hx h
  · rw [if_neg h]
    exact hy h

end Completes

end Action

end VDebugger.Machine
