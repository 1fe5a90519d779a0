import Mathlib.Data.Fintype.EquivFin
import Mathlib.Logic.Relation

namespace VDebugger.Machine

open Relation

variable {α : Type} {r : α → α → Prop} {a b : α}

-- There is a way to something that lies on a way back to itself.
def ReachesCycle (r : α → α → Prop) (a : α) : Prop :=
  ∃ b, ReflTransGen r a b ∧ TransGen r b b

theorem ReachesCycle.head (hab : r a b) (h : ReachesCycle r b) : ReachesCycle r a := by
  obtain ⟨c, hreach, hcycle⟩ := h
  exact ⟨c, .head hab hreach, hcycle⟩

-- Such a way does not end.
theorem ReachesCycle.next (h : ReachesCycle r a) : ∃ b, r a b ∧ ReachesCycle r b := by
  obtain ⟨c, hreach, hcycle⟩ := h
  rcases hreach.cases_head with rfl | ⟨b, hab, hbc⟩
  · obtain ⟨b, hab, hba⟩ := TransGen.head'_iff.mp hcycle
    exact ⟨b, hab, a, hba, hcycle⟩
  · exact ⟨b, hab, c, hbc, hcycle⟩

-- Where there are finitely many things, each way from one that does not reach a cycle ends.
theorem acc_of_not_reachesCycle [Finite α] (h : ¬ReachesCycle r a) : Acc (fun c b => r b c) a := by
  let below (c b : { b // ¬ReachesCycle r b }) : Prop := TransGen r b.1 c.1
  have : IsTrans _ below := ⟨fun _ _ _ hcb hba => hba.trans hcb⟩
  have : Std.Irrefl below := ⟨fun b hcycle => b.2 ⟨b.1, .refl, hcycle⟩⟩
  have hwf : WellFounded below := Finite.wellFounded_of_trans_of_irrefl below
  have hacc := hwf.apply ⟨a, h⟩
  generalize hstart : (⟨a, h⟩ : { b // ¬ReachesCycle r b }) = start at hacc
  induction hacc generalizing a with
  | intro b _ ih =>
      subst hstart
      refine Acc.intro a fun c hac => ?_
      have hc : ¬ReachesCycle r c := fun hcycle => h (hcycle.head hac)
      exact ih ⟨c, hc⟩ (TransGen.single hac) hc rfl

-- No way leads back to its start where each step goes down.
theorem not_transGen_of_rank (rank : α → ℕ) (h : ∀ a b, r a b → rank b < rank a) (a : α) :
    ¬TransGen r a a := by
  have hdown {b c : α} (hway : TransGen r b c) : rank c < rank b := by
    induction hway with
    | single hstep => exact h _ _ hstep
    | tail _ hstep ih => exact (h _ _ hstep).trans ih
  exact fun hcycle => Nat.lt_irrefl _ (hdown hcycle)

end VDebugger.Machine
