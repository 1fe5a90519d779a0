import VDebugger.Machine.Action

namespace VDebugger.Machine

namespace Action

section Contracts

variable {σ α β : Type} {pre : σ → Prop} {x : Action σ α} {f : α → Action σ β}
  {post mid : α → σ → Prop} {last : β → σ → Prop}
  {err : Int → σ → Prop} {stuck : σ → Prop}

-- How a call ends: with a value, with a code, or not at all.
def Ends (post : α → σ → Prop) (err : Int → σ → Prop) (stuck : σ → Prop) : Outcome α × σ → Prop
  | (.ok a, t) => post a t
  | (.error code, t) => err code t
  | (.pending, t) => stuck t

-- From a state that `pre` holds of, the call ends as the contract says.
def Meets (pre : σ → Prop) (x : Action σ α) (post : α → σ → Prop) (err : Int → σ → Prop)
    (stuck : σ → Prop) : Prop :=
  ∀ s, pre s → Ends post err stuck (x s)

namespace Meets

theorem bind (hx : x.Meets pre mid err stuck) (hf : ∀ a, (f a).Meets (mid a) last err stuck) :
    (x >>= f).Meets pre last err stuck := by
  intro s hs
  have hend := hx s hs
  rw [bind_apply]
  rcases hrun : x s with ⟨a | _ | _, t⟩ <;> rw [hrun] at hend
  · exact hf a t hend
  · exact hend
  · exact hend

theorem fail {code : Int} (h : ∀ s, pre s → err code s) :
    (Action.fail code : Action σ α).Meets pre post err stuck := h

theorem change {g : σ → σ} {next : Unit → σ → Prop} (h : ∀ s, pre s → next () (g s)) :
    (Action.change g).Meets pre next err stuck := h

theorem fetch {next : σ → σ → Prop} (h : ∀ s, pre s → next s s) :
    (Action.fetch : Action σ σ).Meets pre next err stuck := h

theorem failIf {c : Prop} [Decidable c] {code : Int} {next : Unit → σ → Prop}
    (herr : c → ∀ s, pre s → err code s) (hok : ¬c → ∀ s, pre s → next () s) :
    (Action.failIf c code).Meets pre next err stuck := by
  intro s hs
  by_cases hc : c
  · rw [failIf_of hc]
    exact herr hc s hs
  · rw [failIf_of_not hc]
    exact hok hc s hs

-- An invariant that the call keeps on every way out.
theorem of_preserves {inv : σ → Prop} (h : x.Preserves inv) (herr : ∀ code s, inv s → err code s)
    (hstuck : ∀ s, inv s → stuck s) : x.Meets inv (fun _ => inv) err stuck := by
  intro s hs
  have hend := h s hs
  rcases hrun : x s with ⟨a | _ | _, t⟩ <;> rw [hrun] at hend
  · exact hend
  · exact herr _ t hend
  · exact hstuck t hend

end Meets

end Contracts

end Action

section Phases

variable {π ε : Type} {next : π → ε → Option π} {start phase : π} {log more : List ε} {event : ε}

-- The phase that a log leads to, with the latest event first. `none` where an event came out
-- of turn.
def phaseAfter (next : π → ε → Option π) (start : π) : List ε → Option π
  | [] => some start
  | event :: log => (phaseAfter next start log).bind fun phase => next phase event

theorem phaseAfter_cons (h : phaseAfter next start log = some phase) (event : ε) :
    phaseAfter next start (event :: log) = next phase event := by
  rw [phaseAfter, h, Option.bind_some]

theorem phaseAfter_append (more : List ε) (h : phaseAfter next start log = some phase) :
    phaseAfter next start (more ++ log) = phaseAfter next phase more := by
  induction more with
  | nil => exact h
  | cons event more ih => rw [List.cons_append, phaseAfter, phaseAfter, ih]

-- No event of such a log came out of turn.
theorem phaseAfter_split (h : (phaseAfter next start (more ++ event :: log)).isSome) :
    ∃ phase, phaseAfter next start log = some phase ∧ (next phase event).isSome := by
  have hcons : (phaseAfter next start (event :: log)).isSome := by
    induction more with
    | nil => exact h
    | cons other more ih =>
        rw [List.cons_append, phaseAfter, Option.isSome_bind] at h
        exact ih (Option.isSome_of_any h)
  cases hphase : phaseAfter next start log with
  | none =>
      rw [phaseAfter, hphase] at hcons
      cases hcons
  | some phase => exact ⟨phase, rfl, by rwa [phaseAfter_cons hphase] at hcons⟩

-- Events that leave the phase as it is.
theorem phaseAfter_idle (h : ∀ event ∈ more, next phase event = some phase) :
    phaseAfter next phase more = some phase := by
  induction more with
  | nil => rfl
  | cons event more ih =>
      rw [phaseAfter_cons (ih fun other hmem => h other (List.mem_cons_of_mem _ hmem))]
      exact h event List.mem_cons_self

end Phases

end VDebugger.Machine
