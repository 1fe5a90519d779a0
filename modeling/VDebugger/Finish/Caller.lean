import VDebugger.Command
import VDebugger.Program
import VDebugger.Finish.Lemmas

namespace VDebugger

open Machine

section Caller

variable {κ : Type} {env : Env κ} {s t : Debugger κ} {ra cfa : UWORD}

-- The run from `u` on first comes to `target` with the pc at `ra` and the stack pointer at
-- `cfa`; or something stops it before that by a SIGTRAP of its own, and the registers
-- happen to be those.
def ReturnsFirst (env : Env κ) (target : Proc κ → Prop) (u : Proc κ) (ra cfa : UWORD) : Prop :=
  (∃ v, Lands (cpuStep env) target u v none ∧ v.regs.rip = ra ∧ v.regs.rsp = cfa) ∨
    ∃ v siCode, Lands (cpuStep env) target u v (some (.signal .SIGTRAP siCode)) ∧
      (rewind siCode v.regs).rip = ra ∧ (rewind siCode v.regs).rsp = cfa

-- Where a debugee has stopped, in terms of the run from `u` on.
theorem returnsFirst_iff {target : Proc κ → Prop} {u : Proc κ} {regs : RegsStruct}
    (h : (∃ v, Lands (cpuStep env) target u v none ∧ regs = v.regs) ∨
      ∃ v siCode, Lands (cpuStep env) target u v (some (.signal .SIGTRAP siCode)) ∧
        regs = rewind siCode v.regs) :
    (regs.rip = ra ∧ regs.rsp = cfa) ↔ ReturnsFirst env target u ra cfa := by
  rcases h with ⟨v, hv, rfl⟩ | ⟨v, siCode, hv, rfl⟩
  · constructor
    · intro hregs
      exact .inl ⟨v, hv, hregs⟩
    · rintro (⟨w, hw, hregs⟩ | ⟨w, code, hw, _⟩)
      · obtain ⟨rfl, _⟩ := hv.unique hw
        exact hregs
      · exact nomatch (hv.unique hw).2
  · constructor
    · intro hregs
      exact .inr ⟨v, siCode, hv, hregs⟩
    · rintro (⟨w, hw, _⟩ | ⟨w, code, hw, hregs⟩)
      · exact nomatch (hv.unique hw).2
      · obtain ⟨rfl, hcode⟩ := hv.unique hw
        cases hcode
        exact hregs

-- A debugee stopped by a SIGTRAP, next to a run that it simulates up to `target`.
theorem lands_of_simulation {target : Proc κ → Prop} {rel held : Proc κ → Proc κ → Prop}
    (sim : TrapSimulation (cpuStep env) (cpuStep env) rel held target Proc.pastInt3
      (.signal .SIGTRAP .SI_KERNEL))
    (hrel : ∀ p u, rel p u → p.regs = u.regs) (hheld : ∀ p u, held p u → p.regs = u.regs)
    {p q u : Proc κ} {fuel : Nat} {siCode : SiCode} (hr : rel q u)
    (hrun : runToStop (cpuStep env) fuel q = some (p, .signal .SIGTRAP siCode)) :
    (∃ v, Lands (cpuStep env) target u v none ∧ rewind siCode p.regs = v.regs) ∨
      ∃ v siCode', Lands (cpuStep env) target u v (some (.signal .SIGTRAP siCode')) ∧
        rewind siCode p.regs = rewind siCode' v.regs := by
  rcases sim.lands (stopsAt_of_runToStop hrun) hr with ⟨v, w, hl, hw, rfl, hcode⟩ | ⟨v, hl, hv⟩
  · cases hcode
    exact .inl ⟨v, hl, (rewind_pastInt3 w).trans (hrel w v hw)⟩
  · exact .inr ⟨v, siCode, hl, by rw [hheld p v hv]⟩

-- The debugee with the int3 of `step_out` in place, and where that int3 stops it.
def armedAt (p : Proc κ) (ra : UWORD) : Proc κ :=
  { p with mem := Function.update p.mem ra.toNat int3 }

def AtInt3 (ra : UWORD) (p : Proc κ) : Prop := p.regs.rip = ra ∧ p.mem ra.toNat = int3

theorem armed_simulation (ra : UWORD) :
    TrapSimulation (cpuStep env) (cpuStep env) Eq Eq (AtInt3 ra) Proc.pastInt3
      (.signal .SIGTRAP .SI_KERNEL) where
  trapped p u h hu := by
    subst h
    have hpc : p.mem p.pc = int3 := by
      unfold Proc.pc
      rw [hu.1]
      exact hu.2
    simp only [cpuStep, if_pos hpc]
  moved p u v h _ hv := ⟨v, h ▸ hv, rfl⟩
  halted p u v stop h _ hv := ⟨v, h ▸ hv, rfl⟩

theorem stepOut_ok_off {frameBase : UWORD} (hnone : ¬s.breakpoints.enabledAt s.debugee.regs.rip)
    (hunwind : unwindFrameBase env s = (.ok (some frameBase), s))
    (h : stepOut env s = (.ok (), t)) :
    ∃ p siCode, runToStop (cpuStep env) env.fuel
        (armedAt s.debugee (readWord s.debugee.mem (frameBase - 8).toNat)) =
          some (p, .signal .SIGTRAP siCode) ∧ t.debugee.regs = rewind siCode p.regs := by
  obtain ⟨log, stepped, p, siCode, hover, hrun, hregs⟩ := stepOut_ok hunwind h
  obtain ⟨log', rfl⟩ := stepOverBreakpoint_skipped hover hnone
  exact ⟨p, siCode, hrun, hregs⟩

-- A `finish` that succeeds has returned to the caller exactly if the debugee, from the
-- command on, first meets the int3 at the return address with the stack pointer at the
-- CFA. If the program does not look at its code, that is a matter of the program without
-- the int3.
theorem finish_in_caller_iff {s t : Debugger κ} (hnone : ∀ a, ¬s.breakpoints.enabledAt a)
    (hunwind : unwindFrameBase env s = (.ok (some cfa), s)) (hok : stepOut env s = (.ok (), t)) :
    let ra := readWord s.debugee.mem (cfa - 8).toNat
    let returned := t.debugee.regs.rip = ra ∧ t.debugee.regs.rsp = cfa
    (returned ↔ ReturnsFirst env (AtInt3 ra) (armedAt s.debugee ra) ra cfa) ∧
      ∀ code fetched, CodeImage env code fetched s.debugee →
        InstructionStarts env code fetched s.debugee {ra.toNat} →
          (returned ↔ ReturnsFirst env (fun u => u.regs.rip = ra) s.debugee ra cfa) := by
  intro ra returned
  obtain ⟨p, siCode, hrun, hregs⟩ := stepOut_ok_off (hnone _) hunwind hok
  refine ⟨?_, fun code fetched image starts => ?_⟩
  · apply returnsFirst_iff
    rw [hregs]
    exact lands_of_simulation (armed_simulation ra) (fun p u h => congrArg Proc.regs h)
      (fun p u h => congrArg Proc.regs h) rfl hrun
  · apply returnsFirst_iff
    rw [hregs]
    have htarget : (fun u : Proc κ => u.pc ∈ ({ra.toNat} : Set Nat)) =
        fun w => w.regs.rip = ra := by
      funext u
      exact propext ⟨fun h => BitVec.eq_of_toNat_eq h, fun h => congrArg BitVec.toNat h⟩
    have sim := image.simulation starts
    rw [htarget] at sim
    refine lands_of_simulation sim (fun p u h => h.2.regs) (fun p u h => h.regs) ⟨.start, ?_⟩ hrun
    refine ⟨rfl, rfl, ?_⟩
    have hmark := (Overlay.refl int3 s.debugee.mem).mark ra.toNat
    have hset : insert ra.toNat (∅ : Set Nat) = {ra.toNat} := by
      ext x
      simp
    rwa [hset] at hmark

end Caller

section Examples

-- A recursive function: at 0x1000 it calls itself until rbx is zero, 0x1001 is where its
-- calls return to, and at 0x1002 it returns.
def recursiveExec (p : Proc Unit) : Proc Unit :=
  if p.regs.rip = 0x1000 then
    if p.regs.rbx = 0 then { p with regs := { p.regs with rip := 0x1002 } }
    else
      { p with
        mem := writeWord p.mem (p.regs.rsp - 8).toNat 0x1001
        regs := { p.regs with rsp := p.regs.rsp - 8, rbx := p.regs.rbx - 1, rip := 0x1000 } }
  else if p.regs.rip = 0x1001 then { p with regs := { p.regs with rip := 0x1002 } }
  else
    { p with
      regs := { p.regs with
        rip := readWord p.mem p.regs.rsp.toNat
        rsp := p.regs.rsp + 8 } }

def recursiveEnv : Env Unit :=
  { nopEnv with
    exec p := (recursiveExec p, none)
    unwStep _ := 1
    unwGetRegSp p := (0, p.regs.rsp + 8) }

-- Stopped at the entry of its second activation, which was called from the first one:
-- its CFA is 0x8008. It is to call itself `more` times.
def recursiveStart (more : UWORD) : Debugger Unit :=
  let mem := writeWord (writeWord (fun _ => 0x90) 0x8000 0x1001) 0x8008 0x2000
  { atPrompt mem 0x1000 with
    debugee := ⟨mem, { rip := 0x1000, rsp := 0x8000, rbx := more }, ()⟩ }

theorem finish_in_caller_last :
    ReturnsFirst recursiveEnv (AtInt3 0x1001) (armedAt (recursiveStart 0).debugee 0x1001)
      0x1001 0x8008 := by
  have hra : readWord (recursiveStart 0).debugee.mem (0x8008 - 8 : UWORD).toNat = 0x1001 := by
    decide +kernel
  have hok : (stepOut recursiveEnv (recursiveStart 0)).1 = .ok () := by
    decide +kernel
  have hpc : (stepOut recursiveEnv (recursiveStart 0)).2.debugee.regs.rip = 0x1001 := by
    decide +kernel
  have hsp : (stepOut recursiveEnv (recursiveStart 0)).2.debugee.regs.rsp = 0x8008 := by
    decide +kernel
  generalize hrun : stepOut recursiveEnv (recursiveStart 0) = out at hok hpc hsp
  obtain ⟨res, t⟩ := out
  obtain rfl : res = .ok () := hok
  have hunwind : unwindFrameBase recursiveEnv (recursiveStart 0) =
      (.ok (some 0x8008), recursiveStart 0) := rfl
  have h := (finish_in_caller_iff Table.not_enabledAt_empty hunwind hrun).1
  rw [hra] at h
  exact h.mp ⟨hpc, hsp⟩

-- One more activation below the current one returns to the same address first.
theorem finish_in_recursion :
    let s := recursiveStart 1
    let t := (stepOut recursiveEnv s).2
    s.breakpoints = .empty ∧ unwindFrameBase recursiveEnv s = (.ok (some 0x8008), s) ∧
      readWord s.debugee.mem 0x8000 = 0x1001 ∧ (stepOut recursiveEnv s).1 = .ok () ∧
      ¬(t.debugee.regs.rip = 0x1001 ∧ t.debugee.regs.rsp = 0x8008) := by
  intro s t
  have hsp : t.debugee.regs.rsp = 0x8000 := by
    decide +kernel
  refine ⟨rfl, ?_, by decide +kernel, by decide +kernel, fun h => ?_⟩
  · rfl
  · rw [hsp] at h
    exact absurd h.2 (by decide)

end Examples

end VDebugger
