import VDebugger.Machine.Action

namespace VDebugger.Machine

variable {σ α β : Type}

namespace Action

variable {rel : σ → σ → Prop}

-- Two runs of the call from related states end the same way, in related states.
def Respects (rel : σ → σ → Prop) (x : Action σ α) : Prop :=
  ∀ s t, rel s t → (x s).1 = (x t).1 ∧ rel (x s).2 (x t).2

namespace Respects

theorem pure (a : α) : (Pure.pure a : Action σ α).Respects rel := fun _ _ h => ⟨rfl, h⟩

theorem fail (code : Int) : (Action.fail code : Action σ α).Respects rel := fun _ _ h => ⟨rfl, h⟩

theorem failIf (c : Prop) [Decidable c] (code : Int) :
    (Action.failIf c code : Action σ Unit).Respects rel := fun _ _ h => ⟨rfl, h⟩

theorem change {f : σ → σ} (hf : ∀ s t, rel s t → rel (f s) (f t)) :
    (Action.change f).Respects rel := fun s t h => ⟨rfl, hf s t h⟩

theorem bind {x : Action σ α} {f : α → Action σ β} (hx : x.Respects rel)
    (hf : ∀ a, (f a).Respects rel) : (x >>= f).Respects rel := by
  intro s t h
  obtain ⟨hres, hstate⟩ := hx s t h
  rw [bind_apply, bind_apply]
  rcases hs : x s with ⟨res, s'⟩
  rcases ht : x t with ⟨res', t'⟩
  rw [hs, ht] at hres hstate
  cases hres
  cases res with
  | ok a => exact hf a s' t' hstate
  | error code => exact ⟨rfl, hstate⟩
  | pending => exact ⟨rfl, hstate⟩

-- What is read from the state goes on from either state in the same way.
theorem fetch_bind {f : σ → Action σ β} (hread : ∀ s t, rel s t → f s = f t)
    (hf : ∀ s, (f s).Respects rel) : (Action.fetch >>= f).Respects rel := by
  intro s t h
  rw [bind_of_ok (fetch_apply s), bind_of_ok (fetch_apply t), hread s t h]
  exact hf t s t h

theorem orFail {x : Action σ α} (hx : x.Respects rel) (code : Int) :
    (x.orFail code).Respects rel := by
  intro s t h
  obtain ⟨hres, hstate⟩ := hx s t h
  unfold Action.orFail
  rcases hs : x s with ⟨res, s'⟩
  rcases ht : x t with ⟨res', t'⟩
  rw [hs, ht] at hres hstate
  cases hres
  cases res <;> exact ⟨rfl, hstate⟩

theorem attempt {x : Action σ α} (hx : x.Respects rel) : x.attempt.Respects rel := by
  intro s t h
  obtain ⟨hres, hstate⟩ := hx s t h
  unfold Action.attempt
  rcases hs : x s with ⟨res, s'⟩
  rcases ht : x t with ⟨res', t'⟩
  rw [hs, ht] at hres hstate
  cases hres
  cases res <;> exact ⟨rfl, hstate⟩

end Respects

end Action

section Answers

variable {ι ρ : Type} {step : σ → ι → ρ × σ} {last : ρ → Bool} {quiet : ι → Bool}
  {rel : σ → σ → Prop} {s t : σ}

-- The items in order, each with its answer, up to the first answer that is the last.
def answers (step : σ → ι → ρ × σ) (last : ρ → Bool) : List ι → σ → List (ι × ρ) × σ
  | [], s => ([], s)
  | item :: items, s =>
      let (answer, t) := step s item
      if last answer then ([(item, answer)], t)
      else
        let (rest, u) := answers step last items t
        ((item, answer) :: rest, u)

theorem answers_cons_last {item : ι} {items : List ι} {answer : ρ} (h : step s item = (answer, t))
    (hlast : last answer = true) : answers step last (item :: items) s = ([(item, answer)], t) := by
  simp only [answers, h, hlast, if_true]

theorem answers_cons_more {item : ι} {items : List ι} {answer : ρ} (h : step s item = (answer, t))
    (hmore : last answer = false) : answers step last (item :: items) s =
      ((item, answer) :: (answers step last items t).1, (answers step last items t).2) := by
  simp only [answers, h, hmore, Bool.false_eq_true, if_false]

-- The items that leave related states related can be left out: what remains of the
-- conversation is answered as before and ends in a related state.
theorem answers_erase (last : ρ → Bool)
    (hquiet : ∀ s t item, quiet item = true → rel s t → rel (step s item).2 t)
    (hloud : ∀ s t item, quiet item = false → rel s t →
      (step s item).1 = (step t item).1 ∧ rel (step s item).2 (step t item).2)
    (items : List ι) (h : rel s t) :
    let full := answers step last items s
    let erased := answers step last ((full.1.map Prod.fst).filter fun item => !quiet item) t
    erased.1 = full.1.filter (fun answered => !quiet answered.1) ∧ rel full.2 erased.2 := by
  induction items generalizing s t with
  | nil => exact ⟨rfl, h⟩
  | cons item items ih =>
      rcases hstep : step s item with ⟨answer, s'⟩
      cases hitem : quiet item with
      | true =>
          have hnext := hquiet s t item hitem h
          rw [hstep] at hnext
          cases hlast : last answer with
          | true =>
              rw [answers_cons_last hstep hlast]
              simpa [hitem, answers] using hnext
          | false =>
              rw [answers_cons_more hstep hlast]
              simpa [hitem] using ih hnext
      | false =>
          obtain ⟨hanswer, hnext⟩ := hloud s t item hitem h
          rcases hother : step t item with ⟨answer', t'⟩
          rw [hstep, hother] at hanswer hnext
          cases hanswer
          cases hlast : last answer with
          | true =>
              rw [answers_cons_last hstep hlast]
              simpa [hitem, answers_cons_last hother hlast] using hnext
          | false =>
              rw [answers_cons_more hstep hlast]
              simpa [hitem, answers_cons_more hother hlast] using ih hnext

end Answers

end VDebugger.Machine
