import VDebugger.Command
import VDebugger.Program

namespace VDebugger

open Machine

section Reference

variable {κ : Type}

-- What a command is to do to the program without the int3s: `step n` is n instructions, and
-- `continue` goes to the first enabled address after at least one instruction. The
-- last argument says what stops the program on the way, if anything does.
def Reference (env : Env κ) (on : Set WORD) (command : Command) (u v : Proc κ)
    (stop : Option Stop) : Prop :=
  match command with
  | .step times => Advances (cpuStep env) times.toNat u v stop
  | .cont => LandsNext (cpuStep env) (fun w => w.regs.rip ∈ on) u v stop
  | _ => False

inductive ReferenceRun (env : Env κ) (on : Set WORD) :
    List Command → Proc κ → Proc κ → Option Stop → Prop where
  | nil (u : Proc κ) : ReferenceRun env on [] u u none
  | halted {command : Command} {rest : List Command} {u v : Proc κ} {stop : Stop}
      (h : Reference env on command u v (some stop)) :
      ReferenceRun env on (command :: rest) u v (some stop)
  | cons {command : Command} {rest : List Command} {u v w : Proc κ} {stop : Option Stop}
      (h : Reference env on command u v none) (hrest : ReferenceRun env on rest v w stop) :
      ReferenceRun env on (command :: rest) u w stop

-- Where the unpatched program stands when a session lets it run: before each pass of
-- `step`, and at the start of each `continue`.
inductive ResumedAt (env : Env κ) (on : Set WORD) : List Command → Proc κ → Proc κ → Prop where
  | step {times : WORD} {rest : List Command} {u w : Proc κ} {n : Nat} (hn : n < times.toNat)
      (h : Advances (cpuStep env) n u w none) : ResumedAt env on (.step times :: rest) u w
  | cont {rest : List Command} {u : Proc κ} : ResumedAt env on (.cont :: rest) u u
  | later {command : Command} {rest : List Command} {u v w : Proc κ}
      (h : Reference env on command u v none) (hrest : ResumedAt env on rest v w) :
      ResumedAt env on (command :: rest) u w

theorem ResumedAt.reached {env : Env κ} {on : Set WORD} {commands : List Command}
    {start u w : Proc κ} (hu : Reached (cpuStep env) start u)
    (h : ResumedAt env on commands u w) : Reached (cpuStep env) start w := by
  induction h with
  | step _ h => exact h.reached hu
  | cont => exact hu
  | @later command _ _ _ _ h _ ih =>
      apply ih
      cases command with
      | step times => exact Advances.reached hu h
      | cont => exact LandsNext.reached hu h
      | enable | disable | writeRegister | finish | next => exact h.elim

-- If the program in `u` stands at an address of `on`, the word there is the one that was
-- there at the start.
def WordKept (on : Set WORD) (start u : Proc κ) : Prop :=
  u.regs.rip ∈ on → ∀ i < 8, u.mem (u.pc + i) = start.mem (u.pc + i)

-- It is so wherever the session steps over a breakpoint.
def WordsKept (env : Env κ) (on : Set WORD) (commands : List Command) (start u : Proc κ) : Prop :=
  ∀ w, ResumedAt env on commands u w → WordKept on start w

theorem WordsKept.rest {env : Env κ} {on : Set WORD} {command : Command} {rest : List Command}
    {start u v : Proc κ} (h : WordsKept env on (command :: rest) start u)
    (hv : Reference env on command u v none) : WordsKept env on rest start v :=
  fun w hw => h w (.later hv hw)

-- The unpatched program comes to no enabled address for as long as it is observed.
def RunsOn (env : Env κ) (on : Set WORD) (u : Proc κ) : Prop :=
  ∀ n v, n + 1 < env.fuel → Advances (cpuStep env) (n + 1) u v none → v.regs.rip ∉ on

end Reference

section Transparency

variable {κ : Type} {env : Env κ} {code : Set Nat} {fetched : Proc κ → Set Nat}
  {start u v : Proc κ} {on : Set WORD} {s : Debugger κ}

def marksOf (on : Set WORD) : Set Nat := {x | ∃ a ∈ on, a.toNat = x}

def Spaced (on : Set WORD) : Prop :=
  ∀ a ∈ on, ∀ b ∈ on, a.toNat < b.toNat → a.toNat + 8 ≤ b.toNat

-- The kernel grants everything, a step reports TRAP_TRACE, and the program started in
-- `start` has a code image in which the addresses of `on` are instruction starts at
-- least eight bytes apart.
structure Debuggable (env : Env κ) (code : Set Nat) (fetched : Proc κ → Set Nat)
    (start : Proc κ) (on : Set WORD) : Prop where
  granted : ∀ n, env.fault n = false
  stepCode : ∀ p, env.stepCode p = .TRAP_TRACE
  image : CodeImage env code fetched start
  starts : InstructionStarts env code fetched start (marksOf on)
  spaced : Spaced on

-- The debugger with the breakpoints of `on`, set at the start, when the unpatched
-- program is in `u`.
structure Watched (on : Set WORD) (start u : Proc κ) (s : Debugger κ) : Prop where
  patched : Patched (marksOf on) s.debugee u
  enabled : ∀ a, s.breakpoints.enabledAt a ↔ a ∈ on
  saved : ∀ a ∈ on, ∀ i < 8,
    byteOf (s.breakpoints.lookup a).savedData i = start.mem (a.toNat + i)

theorem mem_marksOf {a : WORD} : a.toNat ∈ marksOf on ↔ a ∈ on := by
  constructor
  · rintro ⟨b, hb, heq⟩
    rwa [← BitVec.eq_of_toNat_eq heq]
  · intro ha
    exact ⟨a, ha, rfl⟩

theorem marksOf_insert (a : WORD) (on : Set WORD) :
    marksOf (insert a on) = insert a.toNat (marksOf on) := by
  ext x
  simp [marksOf, eq_comm]

theorem marksOf_diff (a : WORD) (on : Set WORD) :
    marksOf (on \ {a}) = marksOf on \ {a.toNat} := by
  ext x
  constructor
  · rintro ⟨b, ⟨hb, hne⟩, rfl⟩
    exact ⟨⟨b, hb, rfl⟩, fun h => hne (BitVec.eq_of_toNat_eq h)⟩
  · rintro ⟨⟨b, hb, rfl⟩, hne⟩
    exact ⟨b, ⟨hb, fun h => hne (by rw [h]; rfl)⟩, rfl⟩

theorem union_mem_nil (on : Set WORD) : on ∪ {a | a ∈ ([] : List WORD)} = on := by
  ext a
  simp

theorem union_mem_cons (on : Set WORD) (a : WORD) (rest : List WORD) :
    on ∪ {b | b ∈ a :: rest} = insert a on ∪ {b | b ∈ rest} := by
  ext b
  simp only [Set.mem_union, Set.mem_ofPred_eq, List.mem_cons, Set.mem_insert_iff]
  grind

theorem Spaced.far {a : WORD} (h : Spaced on) (ha : a ∈ on) :
    ∀ x ∈ marksOf on, a.toNat < x → a.toNat + 8 ≤ x := by
  rintro x ⟨b, hb, rfl⟩ hlt
  exact h a ha b hb hlt

theorem Spaced.mono {fewer : Set WORD} (h : Spaced on) (hsub : fewer ⊆ on) : Spaced fewer :=
  fun a ha b hb => h a (hsub ha) b (hsub hb)

theorem watched_none (hnone : ∀ a, ¬s.breakpoints.enabledAt a) :
    Watched ∅ s.debugee s.debugee s where
  patched := by
    have hnil : marksOf ∅ = ∅ := by
      ext x
      simp [marksOf]
    rw [hnil]
    exact ⟨rfl, rfl, Overlay.refl _ _⟩
  enabled a := iff_of_false (hnone a) (Set.notMem_empty a)
  saved a ha := ha.elim

-- A new int3 whose word has no older one behind its first byte.
theorem Watched.mark {a : WORD} {temporaryEnable : Bool} {log : List (Request × Bool)}
    (h : Watched on start start s) (ha : a ∉ on)
    (hbehind : ∀ b ∈ on, ¬(a.toNat < b.toNat ∧ b.toNat < a.toNat + 8)) :
    Watched (insert a on) start start
      { s.withMem (Function.update s.debugee.mem a.toNat int3) with
        breakpoints :=
          s.breakpoints.set ⟨a, readWord s.debugee.mem a.toNat, true, temporaryEnable⟩
        log } := by
  refine ⟨⟨h.patched.regs, h.patched.ext, ?_⟩, fun b => ?_, fun b hb i hi => ?_⟩
  · rw [marksOf_insert]
    exact h.patched.overlay.mark a.toNat
  · rw [Table.enabledAt_set _ _ rfl, h.enabled]
    rfl
  · by_cases hba : b = a
    · subst b
      rw [Table.lookup_set_self, byteOf_readWord _ _ _ hi]
      apply (h.patched.overlay _).2
      rintro ⟨b, hb, heq⟩
      have hne : b.toNat ≠ a.toNat := fun he => ha (BitVec.eq_of_toNat_eq he ▸ hb)
      exact hbehind b hb ⟨by omega, by omega⟩
    · rw [Table.lookup_set_of_ne _ _ hba]
      exact h.saved b (hb.resolve_left hba) i hi

theorem Watched.enable {a : WORD} (hgranted : ∀ n, env.fault n = false)
    (h : Watched on start start s) (ha : a ∉ on) (hspaced : Spaced (insert a on)) :
    ∃ t, handleCommand env (.enable a) s = (.ok (), t) ∧ Watched (insert a on) start start t := by
  rcases handleBreakpointAt_enable_cases env s a with ⟨log, hc⟩ | ⟨⟨n, hn⟩, _⟩
  · refine ⟨_, hc, h.mark ha fun b hb hbetween => ?_⟩
    have hfar := hspaced a (.inl rfl) b (.inr hb)
    omega
  · simp [hgranted n] at hn

-- Lift, step, put back: the instruction under the breakpoint runs as if it were not
-- there.
theorem Watched.stepOver (h : Watched on start u s) (hd : Debuggable env code fetched start on)
    (hword : WordKept on start u) (hu : Reached (cpuStep env) start u) (hon : u.regs.rip ∈ on)
    (hv : cpuStep env u = (v, none)) :
    ∃ t, stepOverBreakpoint env s = (.ok (), t) ∧ Watched on start v t := by
  have hrip : s.debugee.regs.rip = u.regs.rip := by rw [h.patched.regs]
  have hlifted : Patched (marksOf on \ {u.pc})
      { s.debugee with
        mem := writeWord s.debugee.mem s.debugee.pc
          (s.breakpoints.lookup s.debugee.regs.rip).savedData } u := by
    refine ⟨h.patched.regs, h.patched.ext, ?_⟩
    rw [h.patched.pc, hrip]
    exact h.patched.overlay.writeBack u.pc _
      (fun i hi => (h.saved _ hon i hi).trans (hword hon i hi).symm) (hd.spaced.far hon)
  have hstarts := hd.starts.mono fun a (ha : a ∈ marksOf on \ {u.pc}) => ha.1
  obtain ⟨hstop, hnext⟩ := hd.image.cpuStep hstarts hu hlifted fun hm => hm.2 rfl
  rw [hv] at hstop hnext
  obtain ⟨t, hover, hdebugee, htable⟩ := stepOverBreakpoint_granted env s hd.granted hd.stepCode
    ((h.enabled _).mpr (hrip ▸ hon)) (Prod.ext rfl hstop)
  refine ⟨t, hover, ?_, ?_, ?_⟩
  · have hback := hnext.overlay.putBack (a := u.pc) (mem_marksOf.mpr hon)
    rw [← h.patched.pc] at hback
    rw [hdebugee]
    exact ⟨hnext.regs, hnext.ext, hback⟩
  · rw [htable]
    exact h.enabled
  · rw [htable]
    exact h.saved

theorem Watched.of_log (h : Watched on start u s) (log : List (Request × Bool)) :
    Watched on start u { s with log } :=
  ⟨h.patched, h.enabled, h.saved⟩

-- One pass of `step`.
theorem Watched.pass (h : Watched on start u s) (hd : Debuggable env code fetched start on)
    (hword : WordKept on start u) (hu : Reached (cpuStep env) start u)
    (hv : cpuStep env u = (v, none)) :
    ∃ t, handleStepPass env s = (.ok (), t) ∧ Watched on start v t := by
  obtain ⟨read, log, hread, heq⟩ := handleStepPass_eq env s
  have hrip : read = u.regs.rip := by
    rcases hread with rfl | ⟨n, hn⟩
    · rw [h.patched.regs]
    · simp [hd.granted n] at hn
  subst hrip
  rw [heq]
  by_cases hon : u.regs.rip ∈ on
  · rw [if_pos ((Table.lookup_enabled_iff _ _).mpr ((h.enabled _).mpr hon))]
    exact (h.of_log log).stepOver hd hword hu hon hv
  · rw [if_neg fun he => hon ((h.enabled _).mp ((Table.lookup_enabled_iff _ _).mp he))]
    obtain ⟨hstop, hnext⟩ := hd.image.cpuStep hd.starts hu h.patched fun hm => hon (mem_marksOf.mp hm)
    rw [hv] at hstop hnext
    obtain ⟨t, hstep, hdebugee, htable⟩ := stepInstruction_granted env { s with log } hd.granted
      hd.stepCode (Prod.ext rfl hstop)
    refine ⟨t, hstep, hdebugee ▸ hnext, ?_, ?_⟩
    · rw [htable]
      exact h.enabled
    · rw [htable]
      exact h.saved

theorem Watched.steps {times : Nat} (h : Watched on start u s)
    (hd : Debuggable env code fetched start on)
    (hwords : ∀ n < times, ∀ w, Advances (cpuStep env) n u w none → WordKept on start w)
    (hu : Reached (cpuStep env) start u) (hv : Advances (cpuStep env) times u v none) :
    ∃ t, handleStepLoop env times s = (.ok (), t) ∧ Watched on start v t ∧
      Reached (cpuStep env) start v := by
  induction times generalizing u s with
  | zero =>
      cases hv
      exact ⟨s, rfl, h, hu⟩
  | succ times ih =>
      cases hv with
      | next hnext hrest =>
          have hword := hwords 0 (Nat.succ_pos times) u (.done u)
          obtain ⟨mid, hpass, hmid⟩ := h.pass hd hword hu hnext
          have hlater := fun n hn w hw => hwords (n + 1) (Nat.succ_lt_succ hn) w (.next hnext hw)
          obtain ⟨t, hloop, ht⟩ := ih hmid hlater (hu.next hnext) hrest
          exact ⟨t, (Action.bind_of_ok hpass _).trans hloop, ht⟩

-- Where the debugee is when `continue` lets it run: the instruction under a breakpoint
-- is executed before that, and nothing else.
def LeftAt (on : Set WORD) (u v w : Proc κ) : Prop :=
  u.regs.rip ∈ on ∧ w = v ∨ u.regs.rip ∉ on ∧ w = u

theorem LeftAt.lands_iff {w x : Proc κ} {stop : Option Stop} (hw : LeftAt on u v w)
    (hv : cpuStep env u = (v, none)) :
    Lands (cpuStep env) (fun y => y.pc ∈ marksOf on) w x stop ↔
      LandsNext (cpuStep env) (fun y => y.regs.rip ∈ on) u x stop := by
  simp only [Proc.pc, mem_marksOf]
  constructor
  · intro h
    rcases hw with ⟨_, rfl⟩ | ⟨hoff, rfl⟩
    · exact .moved hv h
    · cases h with
      | here hx => exact absurd hx hoff
      | halted _ hx => simp [hv] at hx
      | further _ hx hrest => exact .moved hx hrest
  · intro h
    cases h with
    | halted hx => simp [hv] at hx
    | moved hx hrest =>
        obtain ⟨rfl, _⟩ := Prod.mk.inj (hv.symm.trans hx)
        rcases hw with ⟨_, rfl⟩ | ⟨hoff, rfl⟩
        · exact hrest
        · exact .further hoff hx hrest

theorem Watched.leave {w : Proc κ} (h : Watched on start u s)
    (hd : Debuggable env code fetched start on) (hword : WordKept on start u)
    (hu : Reached (cpuStep env) start u) (hv : cpuStep env u = (v, none)) (hw : LeftAt on u v w) :
    ∃ t, stepOverBreakpoint env s = (.ok (), t) ∧ Watched on start w t ∧
      Reached (cpuStep env) start w := by
  rcases hw with ⟨hon, rfl⟩ | ⟨hoff, rfl⟩
  · obtain ⟨t, hover, ht⟩ := h.stepOver hd hword hu hon hv
    exact ⟨t, hover, ht, hu.next hv⟩
  · have hrip : s.debugee.regs.rip = w.regs.rip := by rw [h.patched.regs]
    rcases stepOverLift_cases env s with ⟨_, log, hlift⟩ | ⟨hlift, _⟩ | ⟨⟨n, hn⟩, _⟩
    · exact ⟨_, Action.bind_of_ok hlift _, h.of_log log, hu⟩
    · exact absurd ((h.enabled _).mp hlift) (hrip ▸ hoff)
    · simp [hd.granted n] at hn

theorem Watched.stopped {t : Debugger κ} {w x q : Proc κ} (ht : Watched on start w t)
    (hd : Debuggable env code fetched start on) (hq : Patched (marksOf on) q x)
    (hrun : runToStop (cpuStep env) env.fuel t.debugee =
      some (q.pastInt3, .signal .SIGTRAP .SI_KERNEL)) :
    ∃ t', (do debugContinue env; waitAndHandleSignal env : DebuggerM κ Unit) t = (.ok (), t') ∧
      Watched on start x t' := by
  obtain ⟨t', ht', hdebugee, htable⟩ := continue_trapped hd.granted hrun
  rw [rewind_pastInt3] at hdebugee
  refine ⟨t', ht', hdebugee ▸ hq, ?_, ?_⟩
  · rw [htable]
    exact ht.enabled
  · rw [htable]
    exact ht.saved

-- From there on the debugee is observed for as long as the unpatched program.
theorem LeftAt.runsOn {w : Proc κ} (hw : LeftAt on u v w) (hv : cpuStep env u = (v, none))
    (h : ∀ n < env.fuel, ∀ x, Advances (cpuStep env) n w x none → x.pc ∉ marksOf on) :
    RunsOn env on u := by
  intro n x hn hx hon
  rcases hw with ⟨_, rfl⟩ | ⟨_, rfl⟩
  · cases hx with
    | next h' hrest =>
        obtain ⟨rfl, _⟩ := Prod.mk.inj (hv.symm.trans h')
        exact h n (by omega) x hrest (mem_marksOf.mpr hon)
  · exact h (n + 1) hn x hx (mem_marksOf.mpr hon)

theorem Watched.cont (h : Watched on start u s) (hd : Debuggable env code fetched start on)
    (hword : WordKept on start u) (hu : Reached (cpuStep env) start u) :
    (handleContinue env s).1 = .pending ∧ RunsOn env on u ∨
      ∃ v stop, LandsNext (cpuStep env) (fun w => w.regs.rip ∈ on) u v stop ∧
        (stop = none → ∃ t, handleContinue env s = (.ok (), t) ∧ Watched on start v t ∧
          Reached (cpuStep env) start v) := by
  rcases hv : cpuStep env u with ⟨v, _ | e⟩
  · obtain ⟨w, hleft⟩ : ∃ w, LeftAt on u v w := by
      by_cases hon : u.regs.rip ∈ on
      · exact ⟨v, .inl ⟨hon, rfl⟩⟩
      · exact ⟨u, .inr ⟨hon, rfl⟩⟩
    obtain ⟨t, hover, ht, hw⟩ := h.leave hd hword hu hv hleft
    have hsim := hd.image.simulation hd.starts
    rcases hrun : runToStop (cpuStep env) env.fuel t.debugee with _ | ⟨p, stop⟩
    · obtain ⟨t', ht'⟩ := continue_pending hd.granted hrun
      have hall : handleContinue env s = (.pending, t') := (Action.bind_of_ok hover _).trans ht'
      refine .inl ⟨congrArg Prod.fst hall, hleft.runsOn hv fun n hn x hx => ?_⟩
      exact hsim.running hrun ⟨hw, ht.patched⟩ hn hx
    · rcases hsim.lands (stopsAt_of_runToStop hrun) ⟨hw, ht.patched⟩ with
        ⟨x, q, hl, ⟨hx, hq⟩, rfl, rfl⟩ | ⟨x, hl, _⟩
      · obtain ⟨t', ht', hstopped⟩ := ht.stopped hd hq hrun
        exact .inr ⟨x, none, (hleft.lands_iff hv).mp hl,
          fun _ => ⟨t', (Action.bind_of_ok hover _).trans ht', hstopped, hx⟩⟩
      · exact .inr ⟨x, some stop, (hleft.lands_iff hv).mp hl, fun hn => (nomatch hn)⟩
  · exact .inr ⟨v, some e, .halted hv, fun hn => (nomatch hn)⟩

-- How a session of steps and continues goes on from where the unpatched program is in
-- `u`: to its end, if nothing but the breakpoints stops the program, or to a `continue`
-- that is not seen to stop.
inductive Followed (env : Env κ) (on : Set WORD) (start u : Proc κ) (s : Debugger κ)
    (commands : List Command) : Prop where
  | ended (v : Proc κ) (stop : Option Stop) (hv : ReferenceRun env on commands u v stop)
      (hok : stop = none → ∃ t, runCommands env commands s = (.ok (), t) ∧ Watched on start v t ∧
        Reached (cpuStep env) start v)
  | running (before rest : List Command) (v : Proc κ) (t : Debugger κ)
      (hsplit : commands = before ++ .cont :: rest) (hv : ReferenceRun env on before u v none)
      (hbefore : runCommands env before s = (.ok (), t)) (hw : Watched on start v t)
      (hreached : Reached (cpuStep env) start v) (hpending : (handleContinue env t).1 = .pending)
      (hruns : RunsOn env on v)

-- The commands of a session keep the debugger and the unpatched program together.
theorem Watched.run {commands : List Command} (h : Watched on start u s)
    (hd : Debuggable env code fetched start on) (hwords : WordsKept env on commands start u)
    (hu : Reached (cpuStep env) start u)
    (hcommands : ∀ command ∈ commands, (∃ times, command = .step times) ∨ command = .cont) :
    Followed env on start u s commands := by
  induction commands generalizing u s with
  | nil => exact .ended u none (.nil u) fun _ => ⟨s, rfl, h, hu⟩
  | cons command rest ih =>
      have hfirst : (command = .cont ∧ (handleContinue env s).1 = .pending ∧ RunsOn env on u) ∨
          ∃ v stop, Reference env on command u v stop ∧
            (stop = none → ∃ t, handleCommand env command s = (.ok (), t) ∧
              Watched on start v t ∧ Reached (cpuStep env) start v) := by
        rcases hcommands command List.mem_cons_self with ⟨times, rfl⟩ | rfl
        · obtain ⟨v, stop, hv⟩ := Advances.exists (cpuStep env) times.toNat u
          refine .inr ⟨v, stop, hv, fun hn => ?_⟩
          subst hn
          exact h.steps hd (fun n hn w hw => hwords w (.step hn hw)) hu hv
        · rcases h.cont hd (hwords u .cont) hu with hpending | hlands
          · exact .inl ⟨rfl, hpending⟩
          · exact .inr hlands
      rcases hfirst with ⟨rfl, hpending, hruns⟩ | ⟨v, stop, hv, hok⟩
      · exact .running [] rest u s rfl (.nil u) rfl h hu hpending hruns
      · cases stop with
        | some e => exact .ended v (some e) (.halted hv) fun hn => (nomatch hn)
        | none =>
            obtain ⟨mid, hc, hmid, hreached⟩ := hok rfl
            have hrun (commands : List Command) :
                runCommands env (command :: commands) s = runCommands env commands mid :=
              Action.bind_of_ok hc _
            have hrestIn : ∀ c ∈ rest, (∃ times, c = .step times) ∨ c = .cont :=
              fun c hm => hcommands c (List.mem_cons_of_mem _ hm)
            cases ih hmid (hwords.rest hv) hreached hrestIn with
            | ended w stop hw hok =>
                refine .ended w stop (.cons hv hw) fun hn => ?_
                rw [hrun]
                exact hok hn
            | running before after w t hsplit hw hbefore ht hreached hpending hruns =>
                exact .running (command :: before) after w t (congrArg _ hsplit) (.cons hv hw)
                  ((hrun before).trans hbefore) ht hreached hpending hruns

-- What is left of the breakpoints while they are disabled one by one: the code image
-- with an int3 at those still in place.
structure Leaving (code : Set Nat) (on : Set WORD) (start : Proc κ) (s : Debugger κ) : Prop where
  overlay : ∃ image, (∀ a ∈ code, image a = start.mem a) ∧
    Overlay int3 (marksOf on) image s.debugee.mem
  saved : ∀ a ∈ on, ∀ i < 8,
    byteOf (s.breakpoints.lookup a).savedData i = start.mem (a.toNat + i)

theorem Watched.leaving (h : Watched on start u s) (hd : Debuggable env code fetched start on)
    (hu : Reached (cpuStep env) start u) : Leaving code on start s :=
  ⟨⟨u.mem, hd.image.mem_code hu, h.patched.overlay⟩, h.saved⟩

theorem Leaving.disable {a : WORD} (hgranted : ∀ n, env.fault n = false)
    (h : Leaving code on start s) (hspaced : Spaced on) (ha : a ∈ on) :
    ∃ t, handleCommand env (.disable a) s = (.ok (), t) ∧ Leaving code (on \ {a}) start t := by
  rcases handleBreakpointAt_disable_cases env s a with ⟨log, hc⟩ | ⟨⟨n, hn⟩, _⟩
  · obtain ⟨image, hcode, hoverlay⟩ := h.overlay
    refine ⟨_, hc, ⟨writeWord image a.toNat (s.breakpoints.lookup a).savedData,
      fun x hx => ?_, ?_⟩, fun b hb i hi => ?_⟩
    · by_cases hin : a.toNat ≤ x ∧ x < a.toNat + 8
      · rw [writeWord_inside _ _ _ _ hin.1 hin.2, h.saved a ha _ (by omega)]
        congr 1
        omega
      · rw [writeWord_outside _ _ _ _ (by omega)]
        exact hcode x hx
    · rw [marksOf_diff]
      exact hoverlay.writeWord a.toNat _ (hspaced.far ha)
    · rw [Table.lookup_delete_of_ne _ _ (by simpa using hb.2)]
      exact h.saved b hb.1 i hi
  · simp [hgranted n] at hn

theorem Leaving.disableAll {order : List WORD} (hgranted : ∀ n, env.fault n = false)
    (h : Leaving code {a | a ∈ order} start s) (hspaced : Spaced {a | a ∈ order})
    (hnodup : order.Nodup) :
    ∃ t, runCommands env (order.map .disable) s = (.ok (), t) ∧
      ∀ a ∈ code, t.debugee.mem a = start.mem a := by
  induction order generalizing s with
  | nil =>
      refine ⟨s, rfl, fun a ha => ?_⟩
      obtain ⟨image, hcode, hoverlay⟩ := h.overlay
      rw [← hcode a ha]
      refine (hoverlay a).2 ?_
      rintro ⟨b, hb, _⟩
      exact List.not_mem_nil hb
  | cons a rest ih =>
      obtain ⟨mid, hc, hmid⟩ := h.disable hgranted hspaced List.mem_cons_self
      have hset : {b | b ∈ a :: rest} \ {a} = {b | b ∈ rest} := by
        ext b
        have hnot := (List.nodup_cons.mp hnodup).1
        simp only [Set.mem_sdiff, Set.mem_ofPred_eq, List.mem_cons, Set.mem_singleton_iff]
        constructor
        · rintro ⟨hb, hne⟩
          exact hb.resolve_left hne
        · intro hb
          exact ⟨.inr hb, fun he => hnot (he ▸ hb)⟩
      rw [hset] at hmid
      obtain ⟨t, ht, hmem⟩ := ih hmid (hspaced.mono fun b hb => List.mem_cons_of_mem _ hb)
        (List.nodup_cons.mp hnodup).2
      exact ⟨t, (Action.bind_of_ok hc _).trans ht, hmem⟩

theorem Watched.enableAll {addrs : List WORD} (hgranted : ∀ n, env.fault n = false)
    (h : Watched on start start s) (hnew : ∀ a ∈ addrs, a ∉ on) (hnodup : addrs.Nodup)
    (hspaced : Spaced (on ∪ {a | a ∈ addrs})) :
    ∃ t, runCommands env (addrs.map .enable) s = (.ok (), t) ∧
      Watched (on ∪ {a | a ∈ addrs}) start start t := by
  induction addrs generalizing on s with
  | nil =>
      rw [List.map_nil, union_mem_nil]
      exact ⟨s, rfl, h⟩
  | cons a rest ih =>
      rw [union_mem_cons] at hspaced ⊢
      obtain ⟨mid, hc, hmid⟩ := h.enable hgranted (hnew a List.mem_cons_self)
        (hspaced.mono fun b hb => .inl hb)
      have hnew' : ∀ b ∈ rest, b ∉ insert a on := by
        rintro b hb (rfl | hon)
        · exact (List.nodup_cons.mp hnodup).1 hb
        · exact hnew b (List.mem_cons_of_mem _ hb) hon
      obtain ⟨t, ht, hw⟩ := ih hmid hnew' (List.nodup_cons.mp hnodup).2 hspaced
      exact ⟨t, (Action.bind_of_ok hc _).trans ht, hw⟩

-- The debugger shows the program in `v`: its registers, and the code image as it was at
-- the start, once the breakpoints are disabled in any order.
structure ShowsProgram (env : Env κ) (code : Set Nat) (addrs : List WORD) (start v : Proc κ)
    (t : Debugger κ) : Prop where
  regs : t.debugee.regs = v.regs
  disables : ∀ order : List WORD, order.Perm addrs →
    ∃ t', runCommands env (order.map .disable) t = (.ok (), t') ∧
      ∀ a ∈ code, t'.debugee.mem a = start.mem a

theorem Watched.shows {addrs : List WORD} {t : Debugger κ}
    (h : Watched {a | a ∈ addrs} start v t)
    (hd : Debuggable env code fetched start {a | a ∈ addrs}) (hnodup : addrs.Nodup)
    (hreached : Reached (cpuStep env) start v) : ShowsProgram env code addrs start v t := by
  refine ⟨h.patched.regs, fun order hperm => ?_⟩
  have horder : {a | a ∈ addrs} = {a | a ∈ order} := by
    ext a
    exact hperm.mem_iff.symm
  have hleaving := h.leaving hd hreached
  rw [horder] at hleaving
  exact hleaving.disableAll hd.granted (horder ▸ hd.spaced) (hperm.nodup_iff.mpr hnodup)

-- The debugger shows the unpatched program at the end of every session that puts back no
-- changed data, if nothing but the breakpoints stops the program. What it waits for in
-- between is a `continue` only, from which the program comes to no enabled address.
theorem breakpoints_transparent (addrs : List WORD) (hnodup : addrs.Nodup) (s : Debugger κ)
    (hempty : s.breakpoints = .empty)
    (hd : Debuggable env code fetched s.debugee {a | a ∈ addrs}) (commands : List Command)
    (hcommands : ∀ command ∈ commands, (∃ times, command = .step times) ∨ command = .cont)
    (hwords : WordsKept env {a | a ∈ addrs} commands s.debugee s.debugee) :
    ∃ t, runCommands env (addrs.map .enable) s = (.ok (), t) ∧
      ((∃ v stop, ReferenceRun env {a | a ∈ addrs} commands s.debugee v stop ∧
          (stop = none → ∃ t', runCommands env commands t = (.ok (), t') ∧
            ShowsProgram env code addrs s.debugee v t')) ∨
        ∃ before rest v t', commands = before ++ .cont :: rest ∧
          ReferenceRun env {a | a ∈ addrs} before s.debugee v none ∧
          runCommands env before t = (.ok (), t') ∧ ShowsProgram env code addrs s.debugee v t' ∧
          (handleContinue env t').1 = .pending ∧ RunsOn env {a | a ∈ addrs} v) := by
  have hset : (∅ : Set WORD) ∪ {a | a ∈ addrs} = {a | a ∈ addrs} := Set.empty_union _
  have hnone : ∀ a, ¬s.breakpoints.enabledAt a := by
    rw [hempty]
    exact Table.not_enabledAt_empty
  obtain ⟨t, henable, hwatched⟩ := (watched_none hnone).enableAll hd.granted
    (fun a _ ha => ha.elim) hnodup (by rw [hset]; exact hd.spaced)
  rw [hset] at hwatched
  refine ⟨t, henable, ?_⟩
  cases hwatched.run hd hwords .start hcommands with
  | ended v stop hv hok =>
      refine .inl ⟨v, stop, hv, fun hn => ?_⟩
      obtain ⟨t', ht', hw, hreached⟩ := hok hn
      exact ⟨t', ht', hw.shows hd hnodup hreached⟩
  | running before rest v t' hsplit hv hbefore hw hreached hpending hruns =>
      exact .inr ⟨before, rest, v, t', hsplit, hv, hbefore, hw.shows hd hnodup hreached,
        hpending, hruns⟩

end Transparency

section Examples

theorem cpuStep_of_ne {κ : Type} {env : Env κ} {p : Proc κ} (h : p.mem p.pc ≠ int3) :
    cpuStep env p = env.exec p := if_neg h

theorem nopEnv_reached {start u : Proc Unit} (h : Reached (cpuStep nopEnv) start u) :
    u.mem = start.mem := by
  induction h with
  | start => rfl
  | @next u v _ h ih =>
      rw [← ih]
      unfold cpuStep at h
      split at h <;> cases h
      rfl

theorem nopEnv_debuggable (on : Set WORD) (hspaced : Spaced on) (start : Proc Unit) :
    Debuggable nopEnv Set.univ (fun u => {u.pc}) start on where
  granted _ := rfl
  stepCode _ := rfl
  image := by
    refine CodeImage.of_exec (fun _ => rfl) fun u p h _ =>
      ⟨rfl, ⟨?_, rfl, fun _ ha => (ha trivial).elim⟩, fun _ _ => rfl⟩
    simp only [nopEnv, h.regs]
  starts := ⟨fun _ _ => trivial, fun _ _ _ _ ha => ha⟩
  spaced := hspaced

theorem nopEnv_wordsKept (on : Set WORD) (commands : List Command) (start : Proc Unit) :
    WordsKept nopEnv on commands start start := by
  intro w hw _ i _
  rw [nopEnv_reached (hw.reached .start)]

-- Two breakpoints in a program of no-ops: a step, a `continue` to the second one and
-- the disables in the other order.
theorem nops_transparent :
    let s := atPrompt (fun _ => 0x90) 0x1000
    ∃ t, runCommands nopEnv [.enable 0x1001, .enable 0x100a] s = (.ok (), t) ∧
      ((∃ v stop, ReferenceRun nopEnv {a | a ∈ [0x1001, 0x100a]} [.step 2, .cont] s.debugee v stop ∧
          (stop = none → ∃ t', runCommands nopEnv [.step 2, .cont] t = (.ok (), t') ∧
            ShowsProgram nopEnv Set.univ [0x1001, 0x100a] s.debugee v t')) ∨
        ∃ before rest v t', [.step 2, .cont] = before ++ .cont :: rest ∧
          ReferenceRun nopEnv {a | a ∈ [0x1001, 0x100a]} before s.debugee v none ∧
          runCommands nopEnv before t = (.ok (), t') ∧
          ShowsProgram nopEnv Set.univ [0x1001, 0x100a] s.debugee v t' ∧
          (handleContinue nopEnv t').1 = .pending ∧
          RunsOn nopEnv {a | a ∈ [0x1001, 0x100a]} v) := by
  intro s
  have hspaced : Spaced {a | a ∈ [(0x1001 : WORD), 0x100a]} := by
    intro a ha b hb hlt
    simp only [Set.mem_ofPred_eq, List.mem_cons, List.not_mem_nil, or_false] at ha hb
    rcases ha with rfl | rfl <;> rcases hb with rfl | rfl <;> revert hlt <;> decide
  exact breakpoints_transparent [0x1001, 0x100a] (by decide) s rfl
    (nopEnv_debuggable _ hspaced _) [.step 2, .cont] (by simp) (nopEnv_wordsKept _ _ _)

-- The program: at 0x1000 the byte at 0x1002 goes up by one, at 0x1001 it is loaded into
-- rax, and so on in turn. Its code is those two one-byte instructions.
def counterExec (p : Proc Unit) : Proc Unit :=
  if p.regs.rip = 0x1000 then
    { p with
      mem := Function.update p.mem 0x1002 (p.mem 0x1002 + 1)
      regs := { p.regs with rip := 0x1001 } }
  else { p with regs := { p.regs with rax := (p.mem 0x1002).setWidth 64, rip := 0x1000 } }

def counterEnv : Env Unit := { nopEnv with exec p := (counterExec p, none) }

theorem counterEnv_debuggable :
    Debuggable counterEnv {a | a = 0x1000 ∨ a = 0x1001} (fun u => {u.pc})
      (atPrompt (fun _ => 0x90) 0x1000).debugee {a | a ∈ [0x1001]} where
  granted _ := rfl
  stepCode _ := rfl
  image := by
    refine CodeImage.of_exec (fun _ => rfl) fun u p h _ => ⟨rfl, ?_, fun a ha => ?_⟩
    · have hbyte : p.mem 0x1002 = u.mem 0x1002 := h.data _ (by decide)
      simp only [counterEnv, counterExec, h.regs, hbyte]
      split
      · refine ⟨rfl, rfl, fun a ha => ?_⟩
        by_cases hx : a = 0x1002
        · subst hx
          simp only [Function.update_self]
        · simp only [Function.update_of_ne hx]
          exact h.data a ha
      · exact ⟨rfl, rfl, h.data⟩
    · simp only [counterEnv, counterExec]
      split
      · exact Function.update_of_ne (by simp only [Set.mem_ofPred_eq] at ha; omega) _ _
      · rfl
  starts := by
    refine ⟨fun x => ?_, fun _ _ _ _ ha => ha⟩
    rintro ⟨a, ha, rfl⟩
    rw [List.mem_singleton.mp ha]
    exact .inr rfl
  spaced := by
    intro a ha b hb hlt
    rw [List.mem_singleton.mp ha, List.mem_singleton.mp hb] at hlt
    exact absurd hlt (Nat.lt_irrefl _)

-- The saved word of a breakpoint in the last bytes of the code image reaches the
-- program's data: after two steps rax is one short.
theorem not_transparent_before_data :
    let s := atPrompt (fun _ => 0x90) 0x1000
    Debuggable counterEnv {a | a = 0x1000 ∨ a = 0x1001} (fun u => {u.pc}) s.debugee
        {a | a ∈ [0x1001]} ∧
      s.breakpoints = .empty ∧
      ∃ t v, runCommands counterEnv [.enable 0x1001, .step 2] s = (.ok (), t) ∧
        ReferenceRun counterEnv {a | a ∈ [0x1001]} [.step 2] s.debugee v none ∧
        t.debugee.regs ≠ v.regs := by
  intro s
  have hrun : (runCommands counterEnv [.enable 0x1001, .step 2] s).1 = .ok () := by
    decide +kernel
  have hrax : (runCommands counterEnv [.enable 0x1001, .step 2] s).2.debugee.regs.rax = 0x90 := by
    decide +kernel
  have hreference : (counterExec (counterExec s.debugee)).regs.rax = 0x91 := by
    decide +kernel
  have hfirst : s.debugee.mem s.debugee.pc ≠ int3 := by decide +kernel
  have hsecond : (counterExec s.debugee).mem (counterExec s.debugee).pc ≠ int3 := by
    decide +kernel
  have hsteps : Reference counterEnv {a | a ∈ [0x1001]} (.step 2) s.debugee
      (counterExec (counterExec s.debugee)) none :=
    show Advances (cpuStep counterEnv) 2 _ _ _ from
      .next (cpuStep_of_ne hfirst) (.next (cpuStep_of_ne hsecond) (.done _))
  refine ⟨counterEnv_debuggable, rfl, (runCommands counterEnv [.enable 0x1001, .step 2] s).2,
    counterExec (counterExec s.debugee), ?_, .cons hsteps (.nil _), fun h => ?_⟩
  · rw [← hrun]
  · rw [h, hreference] at hrax
    exact absurd hrax (by decide)

end Examples

end VDebugger
