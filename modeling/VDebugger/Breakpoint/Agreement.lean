import VDebugger.Breakpoint.Stepping
import VDebugger.Breakpoint.Transparency

namespace VDebugger

open Machine

variable {κ : Type} {env : Env κ} {code : Set Nat} {fetched : Proc κ → Set Nat}
  {start u v : Proc κ} {on : Set WORD} {s t : Debugger κ} {commands : List Command}

-- The int3s and the unpatched program leave nothing open.
theorem Patched.unique {marks : Set Nat} {p q : Proc κ} (h : Patched marks p u)
    (h' : Patched marks q u) : p = q := by
  obtain ⟨mem, regs, ext⟩ := p
  obtain ⟨mem', regs', ext'⟩ := q
  obtain rfl : mem = mem' := h.overlay.unique h'.overlay
  obtain rfl : regs = regs' := h.regs.trans h'.regs.symm
  obtain rfl : ext = ext' := h.ext.trans h'.ext.symm
  rfl

-- The first instructions of a session are its first command's, and the others are the
-- others'.
theorem ResumedAt.of_split {command : Command} {rest : List Command} {w : Proc κ} {m n k : Nat}
    (hv : Reference env on command u v none) (hm : Advances (cpuStep env) m u v none)
    (hrest : ∀ k < n, ∀ w, Advances (cpuStep env) k v w none → w.regs.rip ∈ on →
      ResumedAt env on rest v w)
    (hk : k < m + n) (hw : Advances (cpuStep env) k u w none) (hon : w.regs.rip ∈ on)
    (hfirst : k < m → ResumedAt env on (command :: rest) u w) :
    ResumedAt env on (command :: rest) u w := by
  by_cases hkm : k < m
  · exact hfirst hkm
  · obtain ⟨k, rfl⟩ := Nat.exists_eq_add_of_le (Nat.le_of_not_lt hkm)
    exact .later hv (hrest k (by omega) w (hm.split hw) hon)

-- A session of steps and continues is so many instructions of the unpatched program, and
-- is resumed at every enabled address among them.
theorem ReferenceRun.advances (h : ReferenceRun env on commands u v none) :
    ∃ n, Advances (cpuStep env) n u v none ∧
      ∀ k < n, ∀ w, Advances (cpuStep env) k u w none → w.regs.rip ∈ on →
        ResumedAt env on commands u w := by
  generalize hstop : (none : Option Stop) = stop at h ⊢
  induction h with
  | nil u => exact ⟨0, .done u, fun k hk => absurd hk (Nat.not_lt_zero k)⟩
  | halted => cases hstop
  | @cons command rest u v w stop h hrest ih =>
      subst hstop
      obtain ⟨n, hn, hresumed⟩ := ih rfl
      cases command with
      | step times =>
          refine ⟨times.toNat + n, h.append hn, fun k hk x hx hon => ?_⟩
          exact .of_split h h hresumed hk hx hon fun hlt => .step hlt hx
      | cont =>
          obtain ⟨m, hm, hbefore⟩ := LandsNext.advances h
          refine ⟨m + 1 + n, hm.append hn, fun k hk x hx hon => ?_⟩
          refine .of_split h hm hresumed hk hx hon fun hlt => ?_
          cases k with
          | zero =>
              cases hx
              exact .cont
          | succ k => exact absurd hon (hbefore k (Nat.lt_of_succ_lt_succ hlt) x hx)
      | enable | disable | writeRegister | finish | next => exact h.elim

theorem ReferenceRun.unstopped {stop : Option Stop}
    (hnever : ∀ w, Reached (cpuStep env) start w → (cpuStep env w).2 = none)
    (hu : Reached (cpuStep env) start u) (h : ReferenceRun env on commands u v stop) :
    stop = none := by
  have hcommand {command : Command} {u v : Proc κ} {stop : Option Stop}
      (hu : Reached (cpuStep env) start u) (h : Reference env on command u v stop) :
      stop = none ∧ Reached (cpuStep env) start v := by
    cases command with
    | step times => exact Advances.unstopped hnever hu h
    | cont => exact LandsNext.unstopped hnever hu h
    | enable | disable | writeRegister | finish | next => exact h.elim
  induction h with
  | nil => rfl
  | halted h => exact (hcommand hu h).1
  | cons h _ ih => exact ih (hcommand hu h).2

theorem runCommands_onward
    (hcommands : ∀ command ∈ commands, (∃ times, command = .step times) ∨ command = .cont) :
    (runCommands env commands).Keeps Onward := by
  induction commands with
  | nil => exact fun s => (Frame.refl s).onward
  | cons command rest ih =>
      refine Action.Keeps.bind Onward.trans ?_ fun _ =>
        ih fun c hmem => hcommands c (List.mem_cons_of_mem _ hmem)
      rcases hcommands command List.mem_cons_self with ⟨times, rfl⟩ | rfl
      · exact handleStepLoop_onward times.toNat
      · exact handleContinue_onward

theorem runCommands_steps (n : Nat) :
    runCommands env (List.replicate n (.step 1)) = handleStepLoop env n := by
  induction n with
  | zero => rfl
  | succ n ih =>
      have hstep : handleCommand env (.step 1) = (do handleStepPass env; pure ()) := rfl
      have hrun : runCommands env (List.replicate (n + 1) (.step 1)) =
          handleCommand env (.step 1) >>= fun _ => handleStepLoop env n := by
        rw [← ih]
        rfl
      rw [hrun, hstep, Action.bind_assoc]
      rfl

theorem Watched.run_is_steps (h : Watched on start u s)
    (hd : Debuggable env code fetched start on) (hwords : WordsKept env on commands start u)
    (hu : Reached (cpuStep env) start u)
    (hcommands : ∀ command ∈ commands, (∃ times, command = .step times) ∨ command = .cont)
    (hrun : runCommands env commands s = (.ok (), t))
    (hundisturbed : ∀ v stop, ReferenceRun env on commands u v stop → stop = none) :
    ∃ n w, handleStepLoop env n s = (.ok (), w) ∧ w.debugee = t.debugee ∧
      w.breakpoints = t.breakpoints := by
  obtain ⟨v, hv, hrest⟩ : ∃ v, ReferenceRun env on commands u v none ∧ Watched on start v t := by
    cases h.run hd hwords hu hcommands with
    | ended v stop hv hok =>
        obtain rfl := hundisturbed v stop hv
        obtain ⟨t', ht', hrest, -⟩ := hok rfl
        obtain rfl : t = t' := congrArg Prod.snd (hrun.symm.trans ht')
        exact ⟨v, hv, hrest⟩
    | running before rest _ mid hsplit _ hbefore _ _ hpending =>
        rw [hsplit] at hrun
        obtain ⟨mid', hbefore', hcont⟩ := runCommands_append_ok.mp hrun
        obtain rfl : mid = mid' := congrArg Prod.snd (hbefore.symm.trans hbefore')
        obtain ⟨_, _, hcont, -⟩ := Action.bind_eq_ok.mp hcont
        rw [show handleContinue env mid = _ from hcont] at hpending
        cases hpending
  obtain ⟨n, hn, hresumed⟩ := hv.advances
  have hkept : ∀ k < n, ∀ w, Advances (cpuStep env) k u w none → WordKept on start w :=
    fun k hk w hw hon => hwords w (hresumed k hk w hw hon) hon
  obtain ⟨w, hsteps, hw, -⟩ := h.steps hd hkept hu hn
  have hsession : Onward s (runCommands env commands s).2 := runCommands_onward hcommands s
  have hloop : Onward s (handleStepLoop env n s).2 := handleStepLoop_onward n s
  rw [hrun] at hsession
  rw [hsteps] at hloop
  exact ⟨n, w, hsteps, hw.patched.unique hrest.patched,
    hloop.breakpoints.trans hsession.breakpoints.symm⟩

-- A session of steps and continues ends where stepping through it one instruction at a time
-- does, if nothing but the breakpoints stops the program.
theorem session_is_steps (addrs : List WORD) (hnodup : addrs.Nodup)
    (hempty : s.breakpoints = .empty) (hd : Debuggable env code fetched s.debugee {a | a ∈ addrs})
    (hwords : WordsKept env {a | a ∈ addrs} commands s.debugee s.debugee)
    (hcommands : ∀ command ∈ commands, (∃ times, command = .step times) ∨ command = .cont)
    (hrun : runCommands env (addrs.map .enable ++ commands) s = (.ok (), t))
    (hundisturbed : ∀ v stop, ReferenceRun env {a | a ∈ addrs} commands s.debugee v stop →
      stop = none) :
    ∃ n w, runCommands env (addrs.map .enable ++ List.replicate n (.step 1)) s = (.ok (), w) ∧
      w.debugee = t.debugee ∧ w.breakpoints = t.breakpoints := by
  have hset : (∅ : Set WORD) ∪ {a | a ∈ addrs} = {a | a ∈ addrs} := Set.empty_union _
  have hnone : ∀ a, ¬s.breakpoints.enabledAt a := by
    rw [hempty]
    exact Table.not_enabledAt_empty
  obtain ⟨mid, henable, hwatched⟩ := (watched_none hnone).enableAll hd.granted
    (fun a _ ha => ha.elim) hnodup (by rw [hset]; exact hd.spaced)
  rw [hset] at hwatched
  obtain ⟨mid', henable', hrest⟩ := runCommands_append_ok.mp hrun
  obtain rfl : mid = mid' := congrArg Prod.snd (henable.symm.trans henable')
  obtain ⟨n, w, hsteps, hdebugee, htable⟩ :=
    hwatched.run_is_steps hd hwords .start hcommands hrest hundisturbed
  refine ⟨n, w, runCommands_append_ok.mpr ⟨mid, henable, ?_⟩, hdebugee, htable⟩
  rw [runCommands_steps]
  exact hsteps

-- `step 2` and `continue` in a program of no-ops.
theorem nops_are_steps :
    let s := atPrompt (fun _ => 0x90) 0x1000
    ∃ t, runCommands nopEnv [.enable 0x1004, .step 2, .cont] s = (.ok (), t) ∧
      t.debugee.regs.rip = 0x1004 ∧
      ∃ n w, runCommands nopEnv (.enable 0x1004 :: List.replicate n (.step 1)) s = (.ok (), w) ∧
        w.debugee = t.debugee ∧ w.breakpoints = t.breakpoints := by
  intro s
  have hspaced : Spaced {a | a ∈ [(0x1004 : WORD)]} := by
    rintro a ha b hb hlt
    obtain rfl := List.mem_singleton.mp ha
    obtain rfl := List.mem_singleton.mp hb
    omega
  have hkept {w : Proc Unit} (hw : Reached (cpuStep nopEnv) s.debugee w) (x : Nat) :
      w.mem x = 0x90 := congrFun (nopEnv_reached hw) x
  have hnever (w : Proc Unit) (hw : Reached (cpuStep nopEnv) s.debugee w) :
      (cpuStep nopEnv w).2 = none := by
    rw [cpuStep_of_ne (by rw [hkept hw]; decide)]
    rfl
  have hok : (runCommands nopEnv [.enable 0x1004, .step 2, .cont] s).1 = .ok () := by
    decide +kernel
  have hpc : (runCommands nopEnv [.enable 0x1004, .step 2, .cont] s).2.debugee.regs.rip =
      0x1004 := by
    decide +kernel
  generalize hrun : runCommands nopEnv [.enable 0x1004, .step 2, .cont] s = run at hok hpc
  obtain ⟨res, t⟩ := run
  have hres : res = .ok () := hok
  subst hres
  have hcommands : ∀ command ∈ [Command.step 2, .cont],
      (∃ times, command = .step times) ∨ command = .cont := by simp
  refine ⟨t, rfl, hpc, ?_⟩
  exact session_is_steps [0x1004] (by simp) rfl
    (nopEnv_debuggable _ hspaced _) (nopEnv_wordsKept _ _ _) hcommands hrun
    fun v stop h => h.unstopped hnever .start

end VDebugger
