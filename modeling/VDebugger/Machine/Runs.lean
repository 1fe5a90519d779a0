import Mathlib.Logic.Function.Iterate

namespace VDebugger.Machine

section Runs

variable {σ ε : Type}

-- One step of a deterministic system, and what stopped it there, if anything did.
variable (step : σ → σ × Option ε)

-- Run until something stops the system, for at most `fuel` steps.
def runToStop : Nat → σ → Option (σ × ε)
  | 0, _ => none
  | fuel + 1, s =>
      match step s with
      | (t, some stop) => some (t, stop)
      | (t, none) => runToStop fuel t

inductive StopsAt : σ → σ → ε → Prop where
  | now {s t : σ} {stop : ε} (h : step s = (t, some stop)) : StopsAt s t stop
  | later {s t u : σ} {stop : ε} (h : step s = (t, none)) (rest : StopsAt t u stop) :
      StopsAt s u stop

-- The first state at which `target` holds, the start included (`none`), or the
-- state in which something stops the system before that (`some stop`).
inductive Lands (target : σ → Prop) : σ → σ → Option ε → Prop where
  | here {s : σ} (h : target s) : Lands target s s none
  | halted {s t : σ} {stop : ε} (hs : ¬target s) (h : step s = (t, some stop)) :
      Lands target s t (some stop)
  | further {s t u : σ} {stop : Option ε} (hs : ¬target s) (h : step s = (t, none))
      (rest : Lands target t u stop) : Lands target s u stop

-- The same from the second state on: what stops the system during its first step
-- stops it there.
inductive LandsNext (target : σ → Prop) (s t : σ) : Option ε → Prop where
  | halted {stop : ε} (h : step s = (t, some stop)) : LandsNext target s t (some stop)
  | moved {u : σ} {stop : Option ε} (h : step s = (u, none)) (rest : Lands step target u t stop) :
      LandsNext target s t stop

-- The state after so many steps, or the state in which something stops the system
-- before that.
inductive Advances : Nat → σ → σ → Option ε → Prop where
  | done (s : σ) : Advances 0 s s none
  | halted {n : Nat} {s t : σ} {stop : ε} (h : step s = (t, some stop)) :
      Advances (n + 1) s t (some stop)
  | next {n : Nat} {s t u : σ} {stop : Option ε} (h : step s = (t, none))
      (rest : Advances n t u stop) : Advances (n + 1) s u stop

-- The states a run from `start` goes through before anything stops it.
inductive Reached (start : σ) : σ → Prop where
  | start : Reached start start
  | next {s t : σ} (hs : Reached start s) (h : step s = (t, none)) : Reached start t

variable {step}

theorem Advances.exists (step : σ → σ × Option ε) (n : Nat) (s : σ) :
    ∃ t stop, Advances step n s t stop := by
  induction n generalizing s with
  | zero => exact ⟨s, none, .done s⟩
  | succ n ih =>
      rcases h : step s with ⟨t, _ | stop⟩
      · obtain ⟨u, stop, hu⟩ := ih t
        exact ⟨u, stop, .next h hu⟩
      · exact ⟨t, some stop, .halted h⟩

theorem Advances.append {m n : Nat} {s t u : σ} {stop : Option ε} (h : Advances step m s t none)
    (h' : Advances step n t u stop) : Advances step (m + n) s u stop := by
  induction m generalizing s with
  | zero =>
      cases h
      rwa [Nat.zero_add]
  | succ m ih =>
      cases h with
      | next h rest =>
          rw [Nat.succ_add]
          exact .next h (ih rest)

-- The later part of a run, behind an earlier state of it.
theorem Advances.split {m n : Nat} {s t u : σ} {stop : Option ε} (h : Advances step m s t none)
    (h' : Advances step (m + n) s u stop) : Advances step n t u stop := by
  induction m generalizing s with
  | zero =>
      cases h
      rwa [Nat.zero_add] at h'
  | succ m ih =>
      rw [Nat.succ_add] at h'
      cases h with
      | next h rest =>
          cases h' with
          | halted h' => simp [h] at h'
          | next h' rest' =>
              obtain ⟨rfl, _⟩ := Prod.mk.inj (h.symm.trans h')
              exact ih rest rest'

theorem stopsAt_of_runToStop {fuel : Nat} {s t : σ} {stop : ε}
    (h : runToStop step fuel s = some (t, stop)) : StopsAt step s t stop := by
  induction fuel generalizing s with
  | zero => cases h
  | succ fuel ih =>
      simp only [runToStop] at h
      rcases hs : step s with ⟨u, _ | e⟩ <;> rw [hs] at h
      · exact .later hs (ih h)
      · cases h
        exact .now hs

theorem Lands.target {target : σ → Prop} {s t : σ} (h : Lands step target s t none) :
    target t := by
  generalize hstop : (none : Option ε) = stop at h
  induction h with
  | here h => exact h
  | halted => cases hstop
  | further _ _ _ ih => exact ih hstop

theorem Lands.unique {target : σ → Prop} {s t u : σ} {first second : Option ε}
    (h : Lands step target s t first) (h' : Lands step target s u second) :
    t = u ∧ first = second := by
  induction h with
  | here h =>
      cases h' with
      | here => exact ⟨rfl, rfl⟩
      | halted hs _ => exact absurd h hs
      | further hs _ _ => exact absurd h hs
  | halted hs h =>
      cases h' with
      | here ht => exact absurd ht hs
      | halted _ h₂ => simpa [h] using h₂
      | further _ h₂ _ => simp [h] at h₂
  | further hs h rest ih =>
      cases h' with
      | here ht => exact absurd ht hs
      | halted _ h₂ => simp [h] at h₂
      | further _ h₂ rest₂ =>
          obtain ⟨rfl, _⟩ := Prod.mk.inj (h.symm.trans h₂)
          exact ih rest₂

-- A run lands in the same place when fewer states are targets, if that place still is one.
theorem Lands.fewer {target fewer : σ → Prop} {s t : σ} (h : Lands step target s t none)
    (hsub : ∀ u, fewer u → target u) (ht : fewer t) : Lands step fewer s t none := by
  generalize hstop : (none : Option ε) = stop at h ⊢
  induction h with
  | here => exact hstop ▸ .here ht
  | halted => cases hstop
  | further hs h _ ih => exact .further (fun hf => hs (hsub _ hf)) h (ih ht hstop)

-- Where it lands is so many steps away, and no state on the way there is a target.
theorem Lands.advances {target : σ → Prop} {s t : σ} (h : Lands step target s t none) :
    ∃ n, Advances step n s t none ∧ ∀ k < n, ∀ u, Advances step k s u none → ¬target u := by
  generalize hstop : (none : Option ε) = stop at h ⊢
  induction h with
  | here => exact ⟨0, .done _, fun k hk => absurd hk (Nat.not_lt_zero k)⟩
  | halted => cases hstop
  | further hs h _ ih =>
      subst hstop
      obtain ⟨n, hn, hbefore⟩ := ih rfl
      refine ⟨n + 1, .next h hn, fun k hk u hu => ?_⟩
      cases hu with
      | done => exact hs
      | next h' hrest =>
          obtain ⟨rfl, _⟩ := Prod.mk.inj (h.symm.trans h')
          exact hbefore _ (Nat.lt_of_succ_lt_succ hk) u hrest

theorem LandsNext.advances {target : σ → Prop} {s t : σ} (h : LandsNext step target s t none) :
    ∃ n, Advances step (n + 1) s t none ∧
      ∀ k < n, ∀ u, Advances step (k + 1) s u none → ¬target u := by
  cases h with
  | moved h rest =>
      obtain ⟨n, hn, hbefore⟩ := rest.advances
      refine ⟨n, .next h hn, fun k hk u hu => ?_⟩
      cases hu with
      | next h' hrest =>
          obtain ⟨rfl, _⟩ := Prod.mk.inj (h.symm.trans h')
          exact hbefore k hk u hrest

theorem Advances.reached {start s t : σ} {n : Nat} (hs : Reached step start s)
    (h : Advances step n s t none) : Reached step start t := by
  induction n generalizing s with
  | zero =>
      cases h
      exact hs
  | succ n ih =>
      cases h with
      | next h rest => exact ih (hs.next h) rest

theorem LandsNext.reached {target : σ → Prop} {start s t : σ} (hs : Reached step start s)
    (h : LandsNext step target s t none) : Reached step start t := by
  obtain ⟨_, hn, _⟩ := h.advances
  exact hn.reached hs

theorem LandsNext.unique {target : σ → Prop} {s t u : σ} {first second : Option ε}
    (h : LandsNext step target s t first) (h' : LandsNext step target s u second) :
    t = u ∧ first = second := by
  cases h with
  | halted h =>
      cases h' with
      | halted h' => simpa [h] using h'
      | moved h' _ => simp [h] at h'
  | moved h rest =>
      cases h' with
      | halted h' => simp [h] at h'
      | moved h' rest' =>
          obtain ⟨rfl, _⟩ := Prod.mk.inj (h.symm.trans h')
          exact rest.unique rest'

theorem LandsNext.target {target : σ → Prop} {s t : σ} (h : LandsNext step target s t none) :
    target t := by
  cases h with
  | moved _ rest => exact rest.target

theorem LandsNext.fewer {target fewer : σ → Prop} {s t : σ} (h : LandsNext step target s t none)
    (hsub : ∀ u, fewer u → target u) (ht : fewer t) : LandsNext step fewer s t none := by
  cases h with
  | moved h rest => exact .moved h (rest.fewer hsub ht)

-- A system that nothing stops by itself gets where it goes.
theorem Advances.unstopped {start s t : σ} {n : Nat} {stop : Option ε}
    (hnever : ∀ u, Reached step start u → (step u).2 = none) (hs : Reached step start s)
    (h : Advances step n s t stop) : stop = none ∧ Reached step start t := by
  induction h with
  | done => exact ⟨rfl, hs⟩
  | halted h =>
      have hnone := hnever _ hs
      rw [h] at hnone
      cases hnone
  | next h _ ih => exact ih (hs.next h)

theorem Lands.unstopped {target : σ → Prop} {start s t : σ} {stop : Option ε}
    (hnever : ∀ u, Reached step start u → (step u).2 = none) (hs : Reached step start s)
    (h : Lands step target s t stop) : stop = none ∧ Reached step start t := by
  induction h with
  | here => exact ⟨rfl, hs⟩
  | halted _ h =>
      have hnone := hnever _ hs
      rw [h] at hnone
      cases hnone
  | further _ h _ ih => exact ih (hs.next h)

theorem LandsNext.unstopped {target : σ → Prop} {start s t : σ} {stop : Option ε}
    (hnever : ∀ u, Reached step start u → (step u).2 = none) (hs : Reached step start s)
    (h : LandsNext step target s t stop) : stop = none ∧ Reached step start t := by
  cases h with
  | halted h =>
      have hnone := hnever _ hs
      rw [h] at hnone
      cases hnone
  | moved h rest => exact rest.unstopped hnever (hs.next h)

-- From a state that is no target, the first landing is one after at least one step.
theorem Lands.next {target : σ → Prop} {s t : σ} {stop : Option ε}
    (h : Lands step target s t stop) (hs : ¬target s) : LandsNext step target s t stop := by
  cases h with
  | here ht => exact absurd ht hs
  | halted _ h => exact .halted h
  | further _ h rest => exact .moved h rest

end Runs

section Traps

variable {σ τ ε : Type}

-- `step` runs like `reference`, except that it stops with `trap` wherever the
-- reference stands on a target. `mark` says what the trap does to the state.
-- `held` relates the two when both are stopped elsewhere.
structure TrapSimulation (step : σ → σ × Option ε) (reference : τ → τ × Option ε)
    (rel held : σ → τ → Prop) (target : τ → Prop) (mark : σ → σ) (trap : ε) : Prop where
  trapped : ∀ s u, rel s u → target u → step s = (mark s, some trap)
  moved : ∀ s u v, rel s u → ¬target u → reference u = (v, none) →
    ∃ t, step s = (t, none) ∧ rel t v
  halted : ∀ s u v stop, rel s u → ¬target u → reference u = (v, some stop) →
    ∃ t, step s = (t, some stop) ∧ held t v

variable {step : σ → σ × Option ε} {reference : τ → τ × Option ε} {rel held : σ → τ → Prop}
  {target : τ → Prop} {mark : σ → σ} {trap : ε}

theorem TrapSimulation.lands (sim : TrapSimulation step reference rel held target mark trap)
    {s t : σ} {u : τ} {stop : ε} (h : StopsAt step s t stop) (hr : rel s u) :
    (∃ v w, Lands reference target u v none ∧ rel w v ∧ t = mark w ∧ stop = trap) ∨
      ∃ v, Lands reference target u v (some stop) ∧ held t v := by
  induction h generalizing u with
  | @now s t stop h =>
      by_cases hu : target u
      · have ht := sim.trapped s u hr hu
        rw [h] at ht
        obtain ⟨rfl, hstop⟩ := Prod.mk.inj ht
        exact .inl ⟨u, s, .here hu, hr, rfl, Option.some.inj hstop⟩
      · rcases hv : reference u with ⟨v, _ | e⟩
        · obtain ⟨w, hw, _⟩ := sim.moved s u v hr hu hv
          simp [h] at hw
        · obtain ⟨w, hw, hheld⟩ := sim.halted s u v e hr hu hv
          rw [h] at hw
          obtain ⟨rfl, hstop⟩ := Prod.mk.inj hw
          cases hstop
          exact .inr ⟨v, .halted hu hv, hheld⟩
  | @later s t _ _ h rest ih =>
      by_cases hu : target u
      · have ht := sim.trapped s u hr hu
        simp [h] at ht
      · rcases hv : reference u with ⟨v, _ | e⟩
        · obtain ⟨w, hw, hrel⟩ := sim.moved s u v hr hu hv
          rw [h] at hw
          obtain ⟨rfl, _⟩ := Prod.mk.inj hw
          rcases ih hrel with ⟨x, w, hl, hw⟩ | ⟨x, hl, hx⟩
          · exact .inl ⟨x, w, .further hu hv hl, hw⟩
          · exact .inr ⟨x, .further hu hv hl, hx⟩
        · obtain ⟨w, hw, _⟩ := sim.halted s u v e hr hu hv
          simp [h] at hw

-- As long as it has not stopped, the reference has come to no target.
theorem TrapSimulation.running (sim : TrapSimulation step reference rel held target mark trap)
    {fuel n : Nat} {s : σ} {u v : τ} (hrun : runToStop step fuel s = none) (hr : rel s u)
    (hn : n < fuel) (hv : Advances reference n u v none) : ¬target v := by
  induction fuel generalizing n s u with
  | zero => exact absurd hn (Nat.not_lt_zero n)
  | succ fuel ih =>
      by_cases hu : target u
      · simp [runToStop, sim.trapped s u hr hu] at hrun
      · cases hv with
        | done => exact hu
        | next h hrest =>
            obtain ⟨t, ht, hrel⟩ := sim.moved s u _ hr hu h
            rw [runToStop, ht] at hrun
            exact ih hrun hrel (Nat.lt_of_succ_lt_succ hn) hrest

end Traps

end VDebugger.Machine
