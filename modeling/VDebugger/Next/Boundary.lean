import VDebugger.Breakpoint.Transparency
import VDebugger.Finish.Caller
import VDebugger.Next.Lemmas

namespace VDebugger

open Machine

section Boundaries

variable {κ : Type}

-- The addresses of the rows up to `high_pc`, in the order of the table.
def rowAddrs (loadAddress highPc : UWORD) : List LineRow → List WORD
  | [] => []
  | row :: rows =>
      match row.lineaddr with
      | .noEntry | .error => []
      | .ok lineAddr =>
          if lineAddr ≥ highPc then [] else (lineAddr + loadAddress) :: rowAddrs loadAddress highPc rows

-- The rows and the return address of the frame that libunwind gives the CFA of.
def boundaries (rows : List WORD) (caller : Option UWORD) (u : Proc κ) : Set WORD :=
  {a | a ∈ rows ∨ ∃ frameBase, caller = some frameBase ∧ a = readWord u.mem (frameBase - 8).toNat}

-- The debugee is stopped at the first of these addresses that the unpatched program
-- comes to after at least one instruction.
def StopsAtFirst (env : Env κ) (targets : Set WORD) (u : Proc κ) (t : Debugger κ) : Prop :=
  ∃ v, LandsNext (cpuStep env) (fun w => w.regs.rip ∈ targets) u v none ∧ t.debugee.regs = v.regs

-- `step_in` ends where it started: there is no caller frame, or the pc is at the return
-- address and at no row.
def Stays (rows : List WORD) (caller : Option UWORD) (u : Proc κ) : Prop :=
  caller = none ∨ u.regs.rip ∈ boundaries rows caller u ∧ u.regs.rip ∉ rows

-- The addresses in the word of a breakpoint at `pc`, behind its first byte.
def wordBehind (pc : WORD) : Set WORD := {a | pc.toNat < a.toNat ∧ a.toNat < pc.toNat + 8}

-- The boundaries that the step over the row at the pc takes the int3 away from.
def missed (rows : List WORD) (u : Proc κ) : Set WORD :=
  {a | u.regs.rip ∈ rows ∧ a ∈ wordBehind u.regs.rip}

-- The program raises a SIGTRAP of its own at the other boundaries' first landing, and the
-- registers happen to be those in `v`.
def TrapsAlike (env : Env κ) (targets : Set WORD) (u v : Proc κ) : Prop :=
  ∃ w siCode, LandsNext (cpuStep env) (fun w => w.regs.rip ∈ targets) u w
    (some (.signal .SIGTRAP siCode)) ∧ rewind siCode w.regs = v.regs

end Boundaries

section Install

variable {κ : Type} {env : Env κ} {u : Proc κ} {on : Set WORD} {s t : Debugger κ}

theorem Watched.installRow {addr : WORD} (h : Watched on u u s) (hoff : addr ∉ on)
    (hbehind : ∀ b ∈ on, b ∉ wordBehind addr) (hrun : installRow env addr s = (.ok (), t)) :
    Watched (insert addr on) u u t := by
  rcases installRow_cases env addr s with ⟨log, hc⟩ | ⟨_, log, hc⟩
  · rw [hc] at hrun
    cases hrun
    exact h.mark hoff hbehind
  · cases hrun.symm.trans hc

theorem installRow_loadAddress {addr : WORD} (hrun : installRow env addr s = (.ok (), t)) :
    t.loadAddress = s.loadAddress := by
  rcases installRow_cases env addr s with ⟨log, hc⟩ | ⟨_, log, hc⟩
  · rw [hc] at hrun
    cases hrun
    rfl
  · cases hrun.symm.trans hc

theorem rowAddrs_high (loadAddress : UWORD) {highPc lineAddr : UWORD} {row : LineRow}
    (rows : List LineRow) (hrow : row.lineaddr = .ok lineAddr) (hhigh : lineAddr ≥ highPc) :
    rowAddrs loadAddress highPc (row :: rows) = [] := by
  simp only [rowAddrs, hrow, if_pos hhigh]

theorem rowAddrs_low (loadAddress : UWORD) {highPc lineAddr : UWORD} {row : LineRow}
    (rows : List LineRow) (hrow : row.lineaddr = .ok lineAddr) (hlow : ¬lineAddr ≥ highPc) :
    rowAddrs loadAddress highPc (row :: rows) =
      (lineAddr + loadAddress) :: rowAddrs loadAddress highPc rows := by
  simp only [rowAddrs, hrow, if_neg hlow]

-- Each row finds only rows before it, or itself, in place.
theorem Watched.install {highPc : UWORD} {rows : List LineRow} (h : Watched on u u s)
    (hsorted : (rowAddrs s.loadAddress highPc rows).Pairwise fun a b => a.toNat ≤ b.toNat)
    (hbefore : ∀ b ∈ on, ∀ a ∈ rowAddrs s.loadAddress highPc rows, b.toNat ≤ a.toNat)
    (hrun : stepInInstall env highPc rows s = (.ok (), t)) :
    Watched (on ∪ {a | a ∈ rowAddrs s.loadAddress highPc rows}) u u t := by
  induction rows generalizing on s with
  | nil =>
      cases hrun
      rwa [rowAddrs, union_mem_nil]
  | cons row rows ih =>
      obtain ⟨lineaddr, linesrc, lineno⟩ := row
      cases lineaddr with
      | noEntry => cases hrun
      | error => cases hrun
      | ok lineAddr =>
          by_cases hhigh : lineAddr ≥ highPc
          · rw [stepInInstall] at hrun
            simp only [if_pos hhigh] at hrun
            cases hrun
            rwa [rowAddrs_high _ rows rfl hhigh, union_mem_nil]
          · rw [stepInInstall_cons env highPc lineAddr rows s rfl hhigh] at hrun
            rw [rowAddrs_low _ rows rfl hhigh] at hsorted hbefore ⊢
            obtain ⟨hfirst, hrest⟩ := List.pairwise_cons.mp hsorted
            rw [union_mem_cons]
            have hlater : ∀ b ∈ insert (lineAddr + s.loadAddress) on,
                ∀ a ∈ rowAddrs s.loadAddress highPc rows, b.toNat ≤ a.toNat := by
              rintro b (rfl | hb) a ha
              · exact hfirst a ha
              · exact hbefore b hb a (List.mem_cons_of_mem _ ha)
            cases hon : (s.breakpoints.lookup (lineAddr + s.loadAddress)).enabled with
            | true =>
                have hin := (h.enabled _).mp ((Table.lookup_enabled_iff _ _).mp hon)
                rw [hon] at hrun
                rw [Set.insert_eq_of_mem hin] at hlater ⊢
                exact ih h hrest hlater hrun
            | false =>
                rw [hon] at hrun
                obtain ⟨_, mid, hinstall, hrun⟩ := Action.bind_eq_ok.mp hrun
                have hoff : lineAddr + s.loadAddress ∉ on := by
                  intro hin
                  rw [(Table.lookup_enabled_iff _ _).mpr ((h.enabled _).mpr hin)] at hon
                  cases hon
                have hbehind : ∀ b ∈ on, b ∉ wordBehind (lineAddr + s.loadAddress) :=
                  fun b hb hin => Nat.not_lt.mpr (hbefore b hb _ List.mem_cons_self) hin.1
                have hmid := h.installRow hoff hbehind hinstall
                have hload := installRow_loadAddress hinstall
                rw [← hload] at hmid hrest hlater ⊢
                exact ih hmid hrest hlater hrun

end Install

section StepOver

variable {κ : Type} {env : Env κ} {s t : Debugger κ}

theorem stepInstruction_ok (h : stepInstruction env s = (.ok (), t)) :
    ∃ p stop siCode, cpuStep env s.debugee = (p, stop) ∧
      stop.getD (.signal .SIGTRAP (env.stepCode s.debugee)) = .signal .SIGTRAP siCode ∧
      t.debugee = { p with regs := rewind siCode p.regs } ∧ t.breakpoints = s.breakpoints := by
  obtain ⟨_, mid, hstep, h⟩ := Action.bind_eq_ok.mp h
  obtain ⟨_, mid', hptrace, hstep⟩ := Action.bind_eq_ok.mp hstep
  obtain ⟨log, rfl⟩ := ptrace_ok hptrace
  cases hstep
  obtain ⟨w, siCode, hawait, hinfo, hdebugee, htable⟩ := waitAndHandleSignal_ok h
  simp only [awaitStop, Debugger.note] at hawait
  rcases hrun : cpuStep env s.debugee with ⟨p, stop⟩
  rw [hrun] at hawait
  cases hawait
  exact ⟨p, stop, siCode, rfl, hinfo, hdebugee, htable⟩

-- A step over a breakpoint that succeeds: the instruction runs on the memory with the
-- filed word written back.
theorem stepOverBreakpoint_stepped (h : stepOverBreakpoint env s = (.ok (), t))
    (hon : s.breakpoints.enabledAt s.debugee.regs.rip) :
    ∃ p stop siCode,
      let lifted := { s.debugee with
        mem := writeWord s.debugee.mem s.debugee.pc
          (s.breakpoints.lookup s.debugee.regs.rip).savedData }
      cpuStep env lifted = (p, stop) ∧
        stop.getD (.signal .SIGTRAP (env.stepCode lifted)) = .signal .SIGTRAP siCode ∧
        t.debugee.regs = rewind siCode p.regs ∧ t.debugee.ext = p.ext ∧
        t.debugee.mem = Function.update p.mem s.debugee.pc int3 := by
  rcases stepOverLift_cases env s with ⟨hoff, _⟩ | ⟨_, log, hlift⟩ | ⟨_, log, hlift⟩
  · exact absurd hon hoff
  · unfold stepOverBreakpoint at h
    rw [Action.bind_of_ok hlift] at h
    obtain ⟨_, mid, hstep, h⟩ := Action.bind_eq_ok.mp h
    obtain ⟨p, stop, siCode, hcpu, hcode, hdebugee, -⟩ := stepInstruction_ok hstep
    refine ⟨p, stop, siCode, hcpu, hcode, ?_⟩
    obtain ⟨_, last, henable, h⟩ := Action.bind_eq_ok.mp h
    cases h
    rcases enableBreakpoint_cases env mid
      { s.breakpoints.lookup s.debugee.regs.rip with enabled := false } with
      ⟨log', hc⟩ | ⟨_, log', hc⟩
    · rw [hc] at henable
      cases henable
      have hregs : mid.debugee.regs = rewind siCode p.regs := by rw [hdebugee]
      have hext : mid.debugee.ext = p.ext := by rw [hdebugee]
      have hmem : mid.debugee.mem = p.mem := by rw [hdebugee]
      refine ⟨hregs, hext, ?_⟩
      simp only [Debugger.withMem, hmem, Table.lookup_memAddr]
      rfl
    · cases henable.symm.trans hc
  · unfold stepOverBreakpoint at h
    rw [Action.bind_of_error hlift] at h
    cases h

end StepOver

section Boundary

variable {κ : Type} {env : Env κ} {code : Set Nat} {fetched : Proc κ → Set Nat} {u v : Proc κ}
  {on targets : Set WORD} {s t : Debugger κ}

theorem marksOf_lifted {pc : WORD} (hpc : pc ∈ targets) :
    insert pc.toNat {x | x ∈ marksOf targets ∧ ¬(pc.toNat ≤ x ∧ x < pc.toNat + 8)} =
      marksOf (targets \ wordBehind pc) := by
  ext x
  constructor
  · rintro (rfl | ⟨⟨a, ha, rfl⟩, hout⟩)
    · exact ⟨pc, ⟨hpc, fun h => Nat.lt_irrefl _ h.1⟩, rfl⟩
    · exact ⟨a, ⟨ha, fun h => hout ⟨Nat.le_of_lt h.1, h.2⟩⟩, rfl⟩
  · rintro ⟨a, ⟨ha, hout⟩, rfl⟩
    by_cases hat : a = pc
    · exact .inl (congrArg BitVec.toNat hat)
    · have hne : a.toNat ≠ pc.toNat := fun h => hat (BitVec.eq_of_toNat_eq h)
      refine .inr ⟨⟨a, ha, rfl⟩, fun h => hout ⟨?_, h.2⟩⟩
      omega

-- The step over the breakpoint of a row takes the int3s within its word away for good.
theorem leave_row (image : CodeImage env code fetched u)
    (starts : InstructionStarts env code fetched u (marksOf targets))
    (hpatched : Patched (marksOf targets) s.debugee u)
    (hsaved : ∀ i < 8, byteOf (s.breakpoints.lookup s.debugee.regs.rip).savedData i =
      u.mem (u.pc + i))
    (htrace : ∀ p : Proc κ, p.regs = u.regs → env.stepCode p = .TRAP_TRACE)
    (hin : u.regs.rip ∈ targets) (hon : s.breakpoints.enabledAt s.debugee.regs.rip)
    (hover : stepOverBreakpoint env s = (.ok (), t)) (hv : cpuStep env u = (v, none)) :
    Patched (marksOf (targets \ wordBehind u.regs.rip)) t.debugee v := by
  obtain ⟨p, stop, siCode, hcpu, hcode, hregs, hext, hmem⟩ := stepOverBreakpoint_stepped hover hon
  have hlifted := hpatched.overlay.liftWord u.pc _ hsaved
  rw [← hpatched.pc] at hlifted
  have hfewer : Patched {x | x ∈ marksOf targets ∧ ¬(s.debugee.pc ≤ x ∧ x < s.debugee.pc + 8)}
      { s.debugee with
        mem := writeWord s.debugee.mem s.debugee.pc
          (s.breakpoints.lookup s.debugee.regs.rip).savedData } u :=
    ⟨hpatched.regs, hpatched.ext, hlifted⟩
  have hstarts := starts.mono fun x (hx : x ∈ {x | x ∈ marksOf targets ∧
    ¬(s.debugee.pc ≤ x ∧ x < s.debugee.pc + 8)}) => hx.1
  obtain ⟨hstop, hnext⟩ := image.cpuStep hstarts .start hfewer
    fun hm => hm.2 (by rw [hpatched.pc]; omega)
  rw [hcpu, hv] at hstop hnext
  obtain rfl : stop = none := hstop
  rw [Option.getD_none, htrace _ hfewer.regs] at hcode
  cases hcode
  have hback := hnext.overlay.mark u.pc
  rw [hpatched.pc] at hback hmem
  have hset := marksOf_lifted hin
  refine ⟨hregs.trans hnext.regs, hext.trans hnext.ext, ?_⟩
  rw [hmem, ← hset]
  exact hback

theorem stopsAtFirst_iff_of_landed {behind : Set WORD}
    (h : (∃ v, LandsNext (cpuStep env) (fun w => w.regs.rip ∈ targets \ behind) u v none ∧
        t.debugee.regs = v.regs) ∨
      ∃ v siCode, LandsNext (cpuStep env) (fun w => w.regs.rip ∈ targets \ behind) u v
        (some (.signal .SIGTRAP siCode)) ∧ t.debugee.regs = rewind siCode v.regs) :
    StopsAtFirst env targets u t ↔
      ∃ v, LandsNext (cpuStep env) (fun w => w.regs.rip ∈ targets) u v none ∧
        (v.regs.rip ∈ behind → TrapsAlike env (targets \ behind) u v) := by
  refine exists_congr fun v => and_congr_right fun hv => ?_
  constructor
  · intro hregs hbehind
    rcases h with ⟨w, hw, heq⟩ | ⟨w, siCode, hw, heq⟩
    · have hrip : v.regs.rip = w.regs.rip := by rw [← hregs, heq]
      exact absurd (hrip ▸ hbehind) hw.target.2
    · exact ⟨w, siCode, hw, heq.symm.trans hregs⟩
  · intro halike
    by_cases hbehind : v.regs.rip ∈ behind
    · obtain ⟨x, siCode, hx, hregs⟩ := halike hbehind
      rcases h with ⟨w, hw, -⟩ | ⟨w, siCode', hw, heq⟩
      · exact nomatch (hw.unique hx).2
      · obtain ⟨rfl, hcode⟩ := hw.unique hx
        cases hcode
        exact heq.trans hregs
    · have hlanded : LandsNext (cpuStep env) (fun w => w.regs.rip ∈ targets \ behind) u v none :=
        hv.fewer (fun w hw => hw.1) ⟨hv.target, hbehind⟩
      rcases h with ⟨w, hw, heq⟩ | ⟨w, siCode, hw, -⟩
      · obtain ⟨rfl, -⟩ := hw.unique hlanded
        exact heq
      · exact nomatch (hw.unique hlanded).2

-- Where a debugee with the marks of `left` is stopped by a SIGTRAP.
theorem landed_of_run {left : Set WORD} {p q c : Proc κ} {fuel : Nat} {siCode : SiCode}
    (image : CodeImage env code fetched u)
    (starts : InstructionStarts env code fetched u (marksOf left))
    (hreached : Reached (cpuStep env) u c) (hpatched : Patched (marksOf left) q c)
    (hrun : runToStop (cpuStep env) fuel q = some (p, .signal .SIGTRAP siCode)) :
    (∃ v, Lands (cpuStep env) (fun w => w.regs.rip ∈ left) c v none ∧
        rewind siCode p.regs = v.regs) ∨
      ∃ v siCode', Lands (cpuStep env) (fun w => w.regs.rip ∈ left) c v
        (some (.signal .SIGTRAP siCode')) ∧ rewind siCode p.regs = rewind siCode' v.regs := by
  have htarget : (fun w : Proc κ => w.pc ∈ marksOf left) = fun w => w.regs.rip ∈ left :=
    funext fun w => propext mem_marksOf
  have sim := image.simulation starts
  rw [htarget] at sim
  exact lands_of_simulation sim (fun p u h => h.2.regs) (fun p u h => h.regs) ⟨hreached, hpatched⟩ hrun

end Boundary

section Armed

variable {κ : Type} {env : Env κ} {u : Proc κ} {s t mid inst : Debugger κ}

theorem stepIn_ok {rows : List LineRow} {highPc : UWORD}
    (hlookup : stepInLookup env s = (.ok (rows, highPc), mid))
    (hinstall : stepInInstall env highPc rows mid = (.ok (), inst))
    (h : stepIn env s = (.ok (), t)) : stepOut env inst = (.ok (), t) := by
  unfold stepIn at h
  rw [Action.bind_of_ok hlookup] at h
  obtain ⟨_, inst', hrun, h⟩ := Action.bind_eq_ok.mp h
  obtain ⟨_, out, hout, hcleanup⟩ := Action.bind_eq_ok.mp h
  have hsame := stepInCleanup_state env highPc rows out
  rw [hcleanup] at hsame
  obtain ⟨_, rfl⟩ := Prod.mk.inj (hinstall.symm.trans hrun)
  obtain rfl : t = out := hsame
  exact hout

-- The debugee once all rows have their breakpoints, with a table sorted by address.
theorem watched_of_install {rows : List LineRow} {highPc : UWORD}
    (hnone : ∀ a, ¬s.breakpoints.enabledAt a)
    (hlookup : stepInLookup env s = (.ok (rows, highPc), mid))
    (hsorted : (rowAddrs s.loadAddress highPc rows).Pairwise fun a b => a.toNat ≤ b.toNat)
    (hinstall : stepInInstall env highPc rows mid = (.ok (), inst)) :
    Watched {a | a ∈ rowAddrs s.loadAddress highPc rows} s.debugee s.debugee inst := by
  have hlook := stepInLookup_looksUp env s
  rw [hlookup] at hlook
  have hmid : Watched ∅ mid.debugee mid.debugee mid := by
    apply watched_none
    rw [hlook.breakpoints]
    exact hnone
  rw [← hlook.loadAddress] at hsorted ⊢
  have h := hmid.install hsorted (fun b hb => hb.elim) hinstall
  rwa [Set.empty_union, hlook.debugee] at h

-- The int3 of `finish` on top of those of the rows.
theorem Watched.arm {rows : List WORD} {frameBase : UWORD} {code : Set Nat}
    (h : Watched {a | a ∈ rows} u u s)
    (hcode : marksOf {a | a ∈ rows} ⊆ code)
    (hstack : ∀ i < 8, (frameBase - 8).toNat + i ∉ code) :
    let ra := readWord u.mem (frameBase - 8).toNat
    readWord s.debugee.mem (frameBase - 8).toNat = ra ∧
      Patched (marksOf (boundaries rows (some frameBase) u)) (armedAt s.debugee ra) u := by
  intro ra
  have hra : readWord s.debugee.mem (frameBase - 8).toNat = ra :=
    readWord_congr _ _ _ fun i hi =>
      (h.patched.overlay _).2 fun hm => hstack i hi (hcode hm)
  have hset : boundaries rows (some frameBase) u = insert ra {a | a ∈ rows} := by
    ext a
    constructor
    · rintro (ha | ⟨_, hbase, rfl⟩)
      · exact .inr ha
      · cases hbase
        exact .inl rfl
    · rintro (rfl | ha)
      · exact .inr ⟨frameBase, rfl, rfl⟩
      · exact .inl ha
  refine ⟨hra, h.patched.regs, h.patched.ext, ?_⟩
  rw [hset, marksOf_insert]
  exact h.patched.overlay.mark ra.toNat

end Armed

section Stop

variable {κ : Type} {env : Env κ} {code : Set Nat} {fetched : Proc κ → Set Nat} {u : Proc κ}
  {rows : List WORD} {frameBase : UWORD} {s t : Debugger κ}

theorem not_landsNext_of_halted {target : Proc κ → Prop} {c v : Proc κ} {stop : Stop}
    (h : cpuStep env u = (c, some stop)) : ¬LandsNext (cpuStep env) target u v none := by
  intro hv
  exact nomatch (hv.unique (.halted h)).2

-- The debugee of a `finish` that succeeds, once it runs freely.
theorem Watched.stepOut_ok (h : Watched {a | a ∈ rows} u u s)
    (starts : InstructionStarts env code fetched u (marksOf (boundaries rows (some frameBase) u)))
    (hstack : ∀ i < 8, (frameBase - 8).toNat + i ∉ code)
    (hunwind : unwindFrameBase env s = (.ok (some frameBase), s))
    (hok : stepOut env s = (.ok (), t)) :
    ∃ armed stepped p siCode,
      Patched (marksOf (boundaries rows (some frameBase) u)) armed.debugee u ∧
        armed.breakpoints = s.breakpoints ∧ stepOverBreakpoint env armed = (.ok (), stepped) ∧
        runToStop (cpuStep env) env.fuel stepped.debugee = some (p, .signal .SIGTRAP siCode) ∧
        t.debugee.regs = rewind siCode p.regs := by
  have hcode : marksOf {a | a ∈ rows} ⊆ code := by
    rintro x ⟨a, ha, rfl⟩
    exact starts.inCode ⟨a, .inl ha, rfl⟩
  obtain ⟨hra, harmed⟩ := h.arm hcode hstack
  obtain ⟨log, stepped, p, siCode, hover, hrun, hregs⟩ := VDebugger.stepOut_ok hunwind hok
  rw [hra] at hover
  refine ⟨{ s.withMem (Function.update s.debugee.mem
    (readWord u.mem (frameBase - 8).toNat).toNat int3) with log }, stepped, p, siCode, ?_⟩
  exact ⟨harmed, rfl, hover, hrun, hregs⟩

-- At the return address, and at no row, the new int3 is what the debugee meets first.
theorem Watched.stays (h : Watched {a | a ∈ rows} u u s) (image : CodeImage env code fetched u)
    (starts : InstructionStarts env code fetched u (marksOf (boundaries rows (some frameBase) u)))
    (hstack : ∀ i < 8, (frameBase - 8).toNat + i ∉ code)
    (hunwind : unwindFrameBase env s = (.ok (some frameBase), s))
    (hin : u.regs.rip ∈ boundaries rows (some frameBase) u) (hrow : u.regs.rip ∉ rows)
    (hok : stepOut env s = (.ok (), t)) : t.debugee.regs = u.regs := by
  obtain ⟨armed, stepped, p, siCode, harmed, htable, hover, hrun, hregs⟩ :=
    h.stepOut_ok starts hstack hunwind hok
  have hoff : ¬armed.breakpoints.enabledAt armed.debugee.regs.rip := by
    rw [htable, h.enabled, harmed.regs]
    exact hrow
  obtain ⟨log, rfl⟩ := stepOverBreakpoint_skipped hover hoff
  have hhere : Lands (cpuStep env) (fun w => w.regs.rip ∈ boundaries rows (some frameBase) u)
      u u none := .here hin
  rcases landed_of_run image starts .start harmed hrun with ⟨v, hv, hp⟩ | ⟨v, siCode', hv, _⟩
  · obtain ⟨rfl, _⟩ := hv.unique hhere
    exact hregs.trans hp
  · exact nomatch (hv.unique hhere).2

-- Everywhere else the debugee leaves the pc, and then meets the first int3 that the step
-- over the row has left.
theorem Watched.landed {c : Proc κ} (h : Watched {a | a ∈ rows} u u s)
    (image : CodeImage env code fetched u)
    (starts : InstructionStarts env code fetched u (marksOf (boundaries rows (some frameBase) u)))
    (hstack : ∀ i < 8, (frameBase - 8).toNat + i ∉ code)
    (htrace : u.regs.rip ∈ rows → ∀ p : Proc κ, p.regs = u.regs → env.stepCode p = .TRAP_TRACE)
    (hunwind : unwindFrameBase env s = (.ok (some frameBase), s))
    (hpc : u.regs.rip ∈ rows ∨ u.regs.rip ∉ boundaries rows (some frameBase) u)
    (hc : cpuStep env u = (c, none)) (hok : stepOut env s = (.ok (), t)) :
    let left := boundaries rows (some frameBase) u \ missed rows u
    (∃ v, LandsNext (cpuStep env) (fun w => w.regs.rip ∈ left) u v none ∧
        t.debugee.regs = v.regs) ∨
      ∃ v siCode, LandsNext (cpuStep env) (fun w => w.regs.rip ∈ left) u v
        (some (.signal .SIGTRAP siCode)) ∧ t.debugee.regs = rewind siCode v.regs := by
  intro left
  obtain ⟨armed, stepped, p, siCode, harmed, htable, hover, hrun, hregs⟩ :=
    h.stepOut_ok starts hstack hunwind hok
  have hstarts : InstructionStarts env code fetched u (marksOf left) :=
    starts.mono fun x hx => hx.elim fun a ha => ⟨a, ha.1.1, ha.2⟩
  rw [hregs]
  have hrip : armed.debugee.regs.rip = u.regs.rip := by rw [harmed.regs]
  rcases hpc with hrow | hout
  · -- the breakpoint of the row is lifted and put back
    have hleft : left = boundaries rows (some frameBase) u \ wordBehind u.regs.rip := by
      ext a
      simp only [left, missed, hrow, true_and, Set.mem_sdiff, Set.mem_ofPred_eq]
    have hon : armed.breakpoints.enabledAt armed.debugee.regs.rip := by
      rw [htable, h.enabled, hrip]
      exact hrow
    have hsaved : ∀ i < 8, byteOf (armed.breakpoints.lookup armed.debugee.regs.rip).savedData i =
        u.mem (u.pc + i) := by
      rw [htable, hrip]
      exact h.saved _ hrow
    have hpatched := leave_row image starts harmed hsaved (htrace hrow) (.inl hrow) hon hover hc
    rw [← hleft] at hpatched
    rcases landed_of_run image hstarts (.next .start hc) hpatched hrun with
      ⟨v, hv, hp⟩ | ⟨v, siCode', hv, hp⟩
    · exact .inl ⟨v, .moved hc hv, hp⟩
    · exact .inr ⟨v, siCode', .moved hc hv, hp⟩
  · have hleft : left = boundaries rows (some frameBase) u := by
      ext a
      refine ⟨fun ha => ha.1, fun ha => ⟨ha, fun hm => hout (.inl hm.1)⟩⟩
    have hoff : ¬armed.breakpoints.enabledAt armed.debugee.regs.rip := by
      rw [htable, h.enabled, hrip]
      exact fun hm => hout (.inl hm)
    obtain ⟨log, rfl⟩ := stepOverBreakpoint_skipped hover hoff
    rw [← hleft] at harmed hout
    rcases landed_of_run image hstarts .start harmed hrun with ⟨v, hv, hp⟩ | ⟨v, siCode', hv, hp⟩
    · exact .inl ⟨v, hv.next hout, hp⟩
    · exact .inr ⟨v, siCode', hv.next hout, hp⟩

end Stop

section Main

variable {κ : Type} {env : Env κ} {code : Set Nat} {fetched : Proc κ → Set Nat}
  {s t mid inst : Debugger κ}

variable {rows : List WORD} {caller : Option UWORD} {u : Proc κ}

theorem Watched.regs_of_stays (h : Watched {a | a ∈ rows} u u s)
    (image : CodeImage env code fetched u)
    (starts : InstructionStarts env code fetched u (marksOf (boundaries rows caller u)))
    (hstack : ∀ frameBase, caller = some frameBase → ∀ i < 8, (frameBase - 8).toNat + i ∉ code)
    (hunwind : unwindFrameBase env s = (.ok caller, s)) (hstays : Stays rows caller u)
    (hok : stepOut env s = (.ok (), t)) : t.debugee.regs = u.regs := by
  cases caller with
  | none =>
      unfold stepOut at hok
      rw [Action.bind_of_ok hunwind] at hok
      cases hok
      exact h.patched.regs
  | some frameBase =>
      obtain ⟨hin, hrow⟩ := hstays.resolve_left nofun
      exact h.stays image starts (hstack frameBase rfl) hunwind hin hrow hok

theorem Watched.leaves_iff (h : Watched {a | a ∈ rows} u u s) (image : CodeImage env code fetched u)
    (starts : InstructionStarts env code fetched u (marksOf (boundaries rows caller u)))
    (hstack : ∀ frameBase, caller = some frameBase → ∀ i < 8, (frameBase - 8).toNat + i ∉ code)
    (htrace : u.regs.rip ∈ rows → ∀ p : Proc κ, p.regs = u.regs → env.stepCode p = .TRAP_TRACE)
    (hunwind : unwindFrameBase env s = (.ok caller, s)) (hstays : ¬Stays rows caller u)
    (hok : stepOut env s = (.ok (), t)) :
    StopsAtFirst env (boundaries rows caller u) u t ↔
      ∃ v, LandsNext (cpuStep env) (fun w => w.regs.rip ∈ boundaries rows caller u) u v none ∧
        (v.regs.rip ∈ missed rows u →
          TrapsAlike env (boundaries rows caller u \ missed rows u) u v) := by
  cases caller with
  | none => exact absurd (.inl rfl) hstays
  | some frameBase =>
      rcases hc : cpuStep env u with ⟨c, _ | stop⟩
      · have hpc : u.regs.rip ∈ rows ∨ u.regs.rip ∉ boundaries rows (some frameBase) u := by
          by_cases hrow : u.regs.rip ∈ rows
          · exact .inl hrow
          · exact .inr fun hin => hstays (.inr ⟨hin, hrow⟩)
        apply stopsAtFirst_iff_of_landed
        exact h.landed image starts (hstack frameBase rfl) htrace hunwind hpc hc hok
      · -- the program stops at its first instruction and comes to no boundary
        refine iff_of_false ?_ ?_
        · rintro ⟨v, hv, _⟩
          exact not_landsNext_of_halted hc hv
        · rintro ⟨v, hv, _⟩
          exact not_landsNext_of_halted hc hv

-- A `next` that succeeds stops at the first boundary of the unpatched program exactly if
-- that is none of the addresses in the word that the step over the row at the pc has
-- written back; or if the program happens to stop itself with the same registers.
theorem stops_at_first_boundary_iff {rows : List LineRow} {highPc : UWORD} {caller : Option UWORD}
    (hnone : ∀ a, ¬s.breakpoints.enabledAt a)
    (hlookup : stepInLookup env s = (.ok (rows, highPc), mid))
    (hinstall : stepInInstall env highPc rows mid = (.ok (), inst))
    (hunwind : unwindFrameBase env inst = (.ok caller, inst))
    (hok : stepIn env s = (.ok (), t)) :
    let addrs := rowAddrs s.loadAddress highPc rows
    let u := s.debugee
    let targets := boundaries addrs caller u
    addrs.Pairwise (fun a b => a.toNat ≤ b.toNat) →
      CodeImage env code fetched u → InstructionStarts env code fetched u (marksOf targets) →
      (∀ frameBase, caller = some frameBase → ∀ i < 8, (frameBase - 8).toNat + i ∉ code) →
      (u.regs.rip ∈ addrs → ∀ p : Proc κ, p.regs = u.regs → env.stepCode p = .TRAP_TRACE) →
      (StopsAtFirst env targets u t ↔
        ∃ v, LandsNext (cpuStep env) (fun w => w.regs.rip ∈ targets) u v none ∧
          (Stays addrs caller u → v.regs = u.regs) ∧
          (¬Stays addrs caller u → v.regs.rip ∈ missed addrs u →
            TrapsAlike env (targets \ missed addrs u) u v)) := by
  intro addrs u targets hsorted image starts hstack htrace
  have hwatched : Watched {a | a ∈ addrs} u u inst :=
    watched_of_install hnone hlookup hsorted hinstall
  have hout := stepIn_ok hlookup hinstall hok
  by_cases hstays : Stays addrs caller u
  · have hregs := hwatched.regs_of_stays image starts hstack hunwind hstays hout
    refine exists_congr fun v => and_congr_right fun _ => ?_
    rw [hregs]
    exact ⟨fun h => ⟨fun _ => h.symm, fun hn => absurd hstays hn⟩, fun h => (h.1 hstays).symm⟩
  · rw [hwatched.leaves_iff image starts hstack htrace hunwind hstays hout]
    refine exists_congr fun v => and_congr_right fun _ => ?_
    exact ⟨fun h => ⟨fun hs => absurd hs hstays, fun _ => h⟩, fun h => h.2 hstays⟩

end Main

section Examples

-- The leaf function with rows at its first and third instruction.
def leafRows : List LineRow := [{ lineaddr := .ok 0x2000 }, { lineaddr := .ok 0x2002 }]

def atLeafRows (rip : UWORD) : Debugger Unit :=
  { atPrompt leafMem rip with dwarfDbg := oneFunction 0x2000 0x2008 [0x2000, 0x2002] }

def leafBoundaries (rip : UWORD) : Set WORD :=
  boundaries (rowAddrs 0 0x2008 leafRows) (some 0x8008) (atLeafRows rip).debugee

theorem mem_leafBoundaries (rip a : UWORD) :
    a ∈ leafBoundaries rip ↔ a = 0x2000 ∨ a = 0x2002 ∨ a = 0x2008 := by
  have haddrs : rowAddrs 0 0x2008 leafRows = [0x2000, 0x2002] := by decide
  have hra : readWord leafMem ((0x8008 : UWORD) - 8).toNat = 0x2008 := by decide +kernel
  unfold leafBoundaries
  rw [haddrs]
  constructor
  · rintro (ha | ⟨frameBase, hbase, ha⟩)
    · simp only [List.mem_cons, List.not_mem_nil, or_false] at ha
      exact ha.imp_right .inl
    · cases hbase
      exact .inr (.inr (ha.trans hra))
  · rintro (rfl | rfl | rfl)
    · exact .inl (by simp)
    · exact .inl (by simp)
    · exact .inr ⟨_, rfl, hra.symm⟩

theorem leaf_step {rip : UWORD} (h : leafMem rip.toNat ≠ int3) :
    cpuStep (leafEnv false) (atLeafRows rip).debugee = ((atLeafRows (rip + 1)).debugee, none) :=
  if_neg h

theorem leaf_lands (rip : UWORD) :
    LandsNext (cpuStep (leafEnv false)) (fun w => w.regs.rip ∈ leafBoundaries rip)
      (atLeafRows 0x2001).debugee (atLeafRows 0x2002).debugee none := by
  refine .moved (leaf_step (by decide)) (.here ?_)
  exact (mem_leafBoundaries rip _).mpr (.inr (.inl rfl))

theorem leaf_image (start : Proc Unit) :
    CodeImage (leafEnv false) leafCode (fun u => {u.pc}) start := by
  refine CodeImage.of_exec (fun _ => rfl) fun u p h _ =>
    ⟨rfl, ⟨?_, rfl, h.data⟩, fun _ _ => rfl⟩
  simp only [leafEnv, h.regs]

-- From between the two rows `next` stops at the second one.
theorem stops_at_second_row :
    StopsAtFirst (leafEnv false) (leafBoundaries 0x2001) (atLeafRows 0x2001).debugee
      (stepIn (leafEnv false) (atLeafRows 0x2001)).2 := by
  have hrows : (stepInLookup (leafEnv false) (atLeafRows 0x2001)).1 = .ok (leafRows, 0x2008) := by
    decide +kernel
  have hset : (stepInInstall (leafEnv false) 0x2008 leafRows
      (stepInLookup (leafEnv false) (atLeafRows 0x2001)).2).1 = .ok () := by
    decide +kernel
  have hok : (stepIn (leafEnv false) (atLeafRows 0x2001)).1 = .ok () := by
    decide +kernel
  generalize hlookup : stepInLookup (leafEnv false) (atLeafRows 0x2001) = out at hrows hset
  obtain ⟨res, mid⟩ := out
  obtain rfl : res = .ok (leafRows, 0x2008) := hrows
  generalize hinstall : stepInInstall (leafEnv false) 0x2008 leafRows mid = out at hset
  obtain ⟨res, inst⟩ := out
  obtain rfl : res = .ok () := hset
  generalize hrun : stepIn (leafEnv false) (atLeafRows 0x2001) = out at hok ⊢
  obtain ⟨res, t⟩ := out
  obtain rfl : res = .ok () := hok
  have hunwind : unwindFrameBase (leafEnv false) inst = (.ok (some 0x8008), inst) := rfl
  have hstarts : InstructionStarts (leafEnv false) leafCode (fun u => {u.pc})
      (atLeafRows 0x2001).debugee (marksOf (leafBoundaries 0x2001)) := by
    refine ⟨?_, fun _ _ _ _ ha => ha⟩
    rintro x ⟨a, ha, rfl⟩
    rcases (mem_leafBoundaries 0x2001 a).mp ha with rfl | rfl | rfl <;> exact ⟨by decide, by decide⟩
  have hout : ¬(0x2001 : WORD) ∈ leafBoundaries 0x2001 :=
    fun h => absurd ((mem_leafBoundaries 0x2001 _).mp h) (by decide)
  have hstays : ¬Stays (rowAddrs 0 0x2008 leafRows) (some 0x8008) (atLeafRows 0x2001).debugee :=
    fun h => hout (h.resolve_left nofun).1
  refine (stops_at_first_boundary_iff Table.not_enabledAt_empty hlookup hinstall hunwind hrun
    (by decide) (leaf_image _) hstarts ?_ (fun _ _ _ => rfl)).mpr
    ⟨_, leaf_lands 0x2001, fun h => absurd h hstays, fun _ h => absurd (.inl h.1) hout⟩
  rintro _ ⟨⟩ i hi hm
  exact absurd hm.2 (by simp; omega)

-- From the first row the step over it takes the breakpoint of the second one away, and
-- `next` runs on to the return address.
theorem misses_second_row :
    let s := atLeafRows 0x2000
    let t := (stepIn (leafEnv false) s).2
    (∀ a, ¬s.breakpoints.enabledAt a) ∧
      (stepInLookup (leafEnv false) s).1 = .ok (leafRows, 0x2008) ∧
      (∀ mid : Debugger Unit, unwindFrameBase (leafEnv false) mid = (.ok (some 0x8008), mid)) ∧
      (stepIn (leafEnv false) s).1 = .ok () ∧ t.debugee.regs.rip = 0x2008 ∧
      ¬StopsAtFirst (leafEnv false) (leafBoundaries 0x2000) s.debugee t := by
  intro s t
  have hpc : t.debugee.regs.rip = 0x2008 := by
    decide +kernel
  refine ⟨Table.not_enabledAt_empty, by decide +kernel, fun _ => rfl, by decide +kernel, hpc, ?_⟩
  rintro ⟨v, hv, hregs⟩
  have hout : ¬(0x2001 : WORD) ∈ leafBoundaries 0x2000 :=
    fun h => absurd ((mem_leafBoundaries 0x2000 _).mp h) (by decide)
  have hfirst : LandsNext (cpuStep (leafEnv false)) (fun w => w.regs.rip ∈ leafBoundaries 0x2000)
      s.debugee (atLeafRows 0x2002).debugee none := by
    refine .moved (leaf_step (by decide)) ?_
    cases leaf_lands 0x2000 with
    | moved h rest => exact .further hout h rest
  obtain ⟨rfl, _⟩ := hv.unique hfirst
  rw [hregs] at hpc
  exact absurd hpc (by decide)

end Examples

end VDebugger
