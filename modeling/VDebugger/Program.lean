import VDebugger.Ptrace.Lemmas
import VDebugger.Machine.Overlay

namespace VDebugger

open Machine

variable {κ : Type} {env : Env κ}

-- `p` is `u` but for the bytes of the code image.
structure Disguised (code : Set Nat) (p u : Proc κ) : Prop where
  regs : p.regs = u.regs
  ext : p.ext = u.ext
  data : ∀ a, a ∉ code → p.mem a = u.mem a

-- The program that runs from `start` on neither reads nor writes `code` as data: each of
-- its instructions needs no code bytes but the fetched ones, and leaves all of them
-- alone.
def CodeImage (env : Env κ) (code : Set Nat) (fetched : Proc κ → Set Nat)
    (start : Proc κ) : Prop :=
  ∀ u p, Reached (cpuStep env) start u → Disguised code p u →
    (∀ a ∈ fetched u, p.mem a = u.mem a) →
      (cpuStep env p).2 = (cpuStep env u).2 ∧
        Disguised code (cpuStep env p).1 (cpuStep env u).1 ∧
          ∀ a ∈ code, (cpuStep env p).1.mem a = p.mem a

-- The addresses of `marks` lie in the code image, and an instruction of the run that
-- has one of them among its bytes starts there.
structure InstructionStarts (env : Env κ) (code : Set Nat) (fetched : Proc κ → Set Nat)
    (start : Proc κ) (marks : Set Nat) : Prop where
  inCode : marks ⊆ code
  first : ∀ u, Reached (cpuStep env) start u → ∀ a ∈ marks, a ∈ fetched u → a = u.pc

theorem InstructionStarts.mono {code fewer marks : Set Nat} {fetched : Proc κ → Set Nat}
    {start : Proc κ} (h : InstructionStarts env code fetched start marks) (hsub : fewer ⊆ marks) :
    InstructionStarts env code fetched start fewer :=
  ⟨fun _ ha => h.inCode (hsub ha), fun u hu _ ha => h.first u hu _ (hsub ha)⟩

-- `p` is the program in `u` with an int3 at every address of `marks`.
structure Patched (marks : Set Nat) (p u : Proc κ) : Prop where
  regs : p.regs = u.regs
  ext : p.ext = u.ext
  overlay : Overlay int3 marks u.mem p.mem

namespace Patched

variable {marks : Set Nat} {p u : Proc κ}

theorem pc (h : Patched marks p u) : p.pc = u.pc := by
  unfold Proc.pc
  rw [h.regs]

theorem disguised {code : Set Nat} (h : Patched marks p u) (hcode : marks ⊆ code) :
    Disguised code p u :=
  ⟨h.regs, h.ext, fun a ha => (h.overlay a).2 fun hm => ha (hcode hm)⟩

end Patched

section Step

variable {code marks : Set Nat} {fetched : Proc κ → Set Nat} {start u p : Proc κ}

theorem CodeImage.mem_code (image : CodeImage env code fetched start)
    (hu : Reached (cpuStep env) start u) : ∀ a ∈ code, u.mem a = start.mem a := by
  induction hu with
  | start => exact fun _ _ => rfl
  | @next u v hu h ih =>
      intro a ha
      have hkept := (image u u hu ⟨rfl, rfl, fun _ _ => rfl⟩ fun _ _ => rfl).2.2 a ha
      rw [h] at hkept
      exact hkept.trans (ih a ha)

-- It is enough to look at the instructions other than int3, if the fetch includes the
-- byte at the pc.
theorem CodeImage.of_exec (hpc : ∀ u : Proc κ, u.pc ∈ fetched u)
    (h : ∀ u p, Disguised code p u → (∀ a ∈ fetched u, p.mem a = u.mem a) →
      (env.exec p).2 = (env.exec u).2 ∧ Disguised code (env.exec p).1 (env.exec u).1 ∧
        ∀ a ∈ code, (env.exec p).1.mem a = p.mem a) : CodeImage env code fetched start := by
  intro u p _ hdis hfetch
  have hsame : p.pc = u.pc := by
    unfold Proc.pc
    rw [hdis.regs]
  have hbyte : p.mem p.pc = u.mem u.pc := by
    rw [hsame]
    exact hfetch _ (hpc u)
  simp only [VDebugger.cpuStep, hbyte]
  split
  · exact ⟨rfl, ⟨by simp only [Proc.pastInt3, hdis.regs], hdis.ext, hdis.data⟩, fun _ _ => rfl⟩
  · exact h u p hdis hfetch

-- Off the marks one instruction does the same in both programs.
theorem CodeImage.cpuStep (image : CodeImage env code fetched start)
    (starts : InstructionStarts env code fetched start marks)
    (hu : Reached (cpuStep env) start u) (h : Patched marks p u) (hpc : u.pc ∉ marks) :
    (cpuStep env p).2 = (VDebugger.cpuStep env u).2 ∧
      Patched marks (VDebugger.cpuStep env p).1 (VDebugger.cpuStep env u).1 := by
  have hfetch : ∀ a ∈ fetched u, p.mem a = u.mem a := by
    intro a ha
    refine (h.overlay a).2 fun hm => hpc ?_
    rwa [← starts.first u hu a hm ha]
  obtain ⟨hstop, hdis, hkept⟩ := image u p hu (h.disguised starts.inCode) hfetch
  have hself := (image u u hu ⟨rfl, rfl, fun _ _ => rfl⟩ fun _ _ => rfl).2.2
  refine ⟨hstop, hdis.regs, hdis.ext, fun a => ⟨fun hm => ?_, fun hm => ?_⟩⟩
  · rw [hkept a (starts.inCode hm)]
    exact (h.overlay a).1 hm
  · by_cases ha : a ∈ code
    · rw [hkept a ha, hself a ha]
      exact (h.overlay a).2 hm
    · exact hdis.data a ha

theorem cpuStep_marked (h : Patched marks p u) (hpc : u.pc ∈ marks) :
    cpuStep env p = (p.pastInt3, some (.signal .SIGTRAP .SI_KERNEL)) := by
  have hbyte : p.mem p.pc = int3 := by
    rw [h.pc]
    exact (h.overlay u.pc).1 hpc
  simp only [cpuStep, if_pos hbyte]

-- The patched program runs like the unpatched one up to the first marked address.
theorem CodeImage.simulation (image : CodeImage env code fetched start)
    (starts : InstructionStarts env code fetched start marks) :
    TrapSimulation (VDebugger.cpuStep env) (VDebugger.cpuStep env)
      (fun p u => Reached (VDebugger.cpuStep env) start u ∧ Patched marks p u) (Patched marks)
      (fun u => u.pc ∈ marks) Proc.pastInt3 (.signal .SIGTRAP .SI_KERNEL) where
  trapped p u h hu := cpuStep_marked h.2 hu
  moved p u v h hu hv := by
    obtain ⟨hstop, hnext⟩ := image.cpuStep starts h.1 h.2 hu
    rw [hv] at hstop hnext
    exact ⟨_, Prod.ext rfl hstop, h.1.next hv, hnext⟩
  halted p u v stop h hu hv := by
    obtain ⟨hstop, hnext⟩ := image.cpuStep starts h.1 h.2 hu
    rw [hv] at hstop hnext
    exact ⟨_, Prod.ext rfl hstop, hnext⟩

end Step

end VDebugger
