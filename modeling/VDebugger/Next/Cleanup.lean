import VDebugger.Finish.Writes
import VDebugger.Next.Lemmas

namespace VDebugger

open Machine

variable {κ : Type} {env : Env κ} {s t : Debugger κ}

-- The debugger has set an int3 at `a` between the two states.
def Inserted (s t : Debugger κ) (a : UWORD) : Prop :=
  ∃ new, t.inserted = new ++ s.inserted ∧ a ∈ new

-- The breakpoints set in between are gone from memory and table, and the user's are all
-- there.
structure CleanedUp (s t : Debugger κ) : Prop where
  temporary : ∀ a, Inserted s t a → ¬s.breakpoints.enabledAt a →
    ¬t.breakpoints.enabledAt a ∧ t.debugee.mem a.toNat = s.debugee.mem a.toNat
  user : ∀ a, s.breakpoints.enabledAt a →
    t.breakpoints.enabledAt a ∧ (s.debugee.mem a.toNat = int3 → t.debugee.mem a.toNat = int3)

def FinishStage.Arms (a : UWORD) : FinishStage → Prop
  | .unarmed => False
  | .armed ra _ => a = ra

-- The bytes that count in the end: those of the user's breakpoints and, if it has none
-- there, the one at the return address.
def guarded (stage : FinishStage) (s : Debugger κ) : Set Nat :=
  {x | ∃ a : UWORD, a.toNat = x ∧
    (s.breakpoints.enabledAt a ∧ s.debugee.mem x = int3 ∨
      ¬s.breakpoints.enabledAt a ∧ stage.Arms a)}

-- When `next` cleans up: no row gets a breakpoint of its own, the `finish` inside it
-- leaves the bytes that count as they were, and so does the program, where it has written
-- one of them itself in the meantime.
def RowScan.CleansUp (env : Env κ) (s : Debugger κ) : RowScan → Prop
  | .passed =>
      (finishStage env s).Clean
          {x | x ∈ guarded (finishStage env s) s ∧ finishWrites env s x = none} s ∧
        ∀ x ∈ guarded (finishStage env s) s, ∀ byte,
          finishWrites env s x = some byte → byte = s.debugee.mem x
  | .failed => True
  | .unset _ => Refused env s

theorem inserted_grows (env : Env κ) :
    Kept env fun s t => ∃ new, t.inserted = new ++ s.inserted where
  refl _ := ⟨[], rfl⟩
  trans s t u := by
    intro ⟨first, hfirst⟩ ⟨second, hsecond⟩
    exact ⟨second ++ first, by rw [hsecond, hfirst, List.append_assoc]⟩
  note s req granted hquiet := ⟨[], inserted_note s req granted hquiet⟩
  withMem _ _ := ⟨[], rfl⟩
  withRegs _ _ := ⟨[], rfl⟩
  resume _ _ := ⟨[], rfl⟩
  settle _ _ _ := ⟨[], rfl⟩
  search _ _ := ⟨[], rfl⟩
  trap siCode s := ⟨[], (inserted_quiet env).trap siCode s⟩
  insert s a data granted := by
    cases granted with
    | true => exact ⟨[a], rfl⟩
    | false => exact ⟨[], rfl⟩
  save _ _ _ := ⟨[], rfl⟩
  delete _ _ := ⟨[], rfl⟩

theorem installRow_refused (addr : UWORD) (h : Refused env s) :
    ∃ res t, installRow env addr s = (.error res, t) ∧ LooksUp s t ∧ t.inserted = s.inserted := by
  cases hpeek : env.fault s.log.length with
  | true =>
      have henable := Action.bind_of_error (ptracePeekData_of_refused hpeek addr) fun data => do
        ptracePokeData env .enable addr (setLowByte data int3)
        pure (⟨addr, data, true, true⟩ : Breakpoint)
      exact ⟨_, _, Action.bind_of_error henable saveBreakpoint, ⟨rfl, rfl, rfl, rfl⟩,
        inserted_note s _ _ rfl⟩
  | false =>
      have hpoke : env.fault (s.note (.peekData addr) true).log.length = true := by
        rcases h with h | h
        · rw [hpeek] at h
          cases h
        · exact h
      have henable := (Action.bind_of_ok (ptracePeekData_of_granted hpeek addr) fun data => do
        ptracePokeData env .enable addr (setLowByte data int3)
        pure (⟨addr, data, true, true⟩ : Breakpoint)).trans
          (Action.bind_of_error (ptracePokeData_of_refused hpoke _ _ _) _)
      exact ⟨_, _, Action.bind_of_error henable saveBreakpoint, ⟨rfl, rfl, rfl, rfl⟩, rfl⟩

theorem installRow_granted (addr : UWORD) (h : ¬Refused env s) :
    ∃ t, installRow env addr s = (.ok (), t) ∧ t.breakpoints.enabledAt addr ∧
      t.inserted = addr :: s.inserted := by
  have hpeek : env.fault s.log.length = false := by
    exact Bool.eq_false_iff.mpr fun hf => h (.inl hf)
  have hpoke : env.fault (s.note (.peekData addr) true).log.length = false := by
    exact Bool.eq_false_iff.mpr fun hf => h (.inr hf)
  have henable := (Action.bind_of_ok (ptracePeekData_of_granted hpeek addr) fun data => do
    ptracePokeData env .enable addr (setLowByte data int3)
    pure (⟨addr, data, true, true⟩ : Breakpoint)).trans
      (Action.bind_of_ok (ptracePokeData_of_granted hpoke _ _ _) _)
  refine ⟨_, Action.bind_of_ok henable saveBreakpoint, ?_, rfl⟩
  exact (Table.enabledAt_set s.breakpoints ⟨addr, _, true, true⟩ rfl addr).mpr (.inl rfl)

-- What is enabled stays enabled.
def StaysEnabled (s t : Debugger κ) : Prop :=
  ∀ a, s.breakpoints.enabledAt a → t.breakpoints.enabledAt a

theorem StaysEnabled.trans (s t u : Debugger κ) (h : StaysEnabled s t) (h' : StaysEnabled t u) :
    StaysEnabled s u :=
  fun a ha => h' a (h a ha)

theorem installRow_enabled (addr : UWORD) : (installRow env addr).Keeps StaysEnabled := by
  intro s a ha
  rcases installRow_cases env addr s with ⟨log, h⟩ | ⟨_, log, h⟩
  · rw [h]
    exact (Table.enabledAt_set _ _ rfl a).mpr (.inr ha)
  · rw [h]
    exact ha

theorem stepInInstall_enabled (highPc : UWORD) (rows : List LineRow) :
    (stepInInstall env highPc rows).Keeps StaysEnabled :=
  stepInInstall_keeps env (fun _ _ ha => ha) StaysEnabled.trans installRow_enabled highPc rows

-- What `step_in` does from the first breakpoint on, and once all of them are set.
def stepInFinish (env : Env κ) (highPc : UWORD) (cleanup : List LineRow) : DebuggerM κ Unit := do
  stepOut env
  stepInCleanup env highPc cleanup

def stepInRun (env : Env κ) (highPc : UWORD) (install cleanup : List LineRow) :
    DebuggerM κ Unit := do
  stepInInstall env highPc install
  stepInFinish env highPc cleanup

theorem stepInFinish_state (env : Env κ) (highPc : UWORD) (cleanup : List LineRow)
    (s : Debugger κ) : (stepInFinish env highPc cleanup s).2 = (stepOut env s).2 := by
  rw [stepInFinish, Action.bind_apply]
  rcases stepOut env s with ⟨_ | _ | _, t⟩
  · exact stepInCleanup_state env highPc cleanup t
  · rfl
  · rfl

theorem stepInRun_enabled (highPc : UWORD) (install cleanup : List LineRow) :
    (stepInRun env highPc install cleanup).Keeps StaysEnabled := by
  apply Action.Keeps.bind StaysEnabled.trans (stepInInstall_enabled highPc install)
  intro _ s a ha
  rwa [stepInFinish_state, stepOut_frame.breakpoints]

theorem stepInRun_inserted (highPc : UWORD) (install cleanup : List LineRow) :
    (stepInRun env highPc install cleanup).Keeps fun s t =>
      ∃ new, t.inserted = new ++ s.inserted := by
  have hkept := inserted_grows env
  apply hkept.bind (hkept.stepInInstall highPc install)
  intro _
  exact hkept.bind hkept.stepOut fun _ => hkept.stepInCleanup highPc cleanup

section Finish

theorem inserted_iff_arms {a : UWORD} (hoff : ¬s.breakpoints.enabledAt a) :
    Inserted s (stepOut env s).2 a ↔ (finishStage env s).Arms a := by
  have hin := stepOut_inserted env s
  cases hstage : finishStage env s with
  | unarmed =>
      rw [hstage] at hin
      refine iff_of_false ?_ id
      intro ⟨new, hnew, ha⟩
      have hnil : new = [] := List.append_left_eq_self.mp (hnew.symm.trans hin)
      rw [hnil] at ha
      cases ha
  | armed ra stage =>
      rw [hstage] at hin
      obtain ⟨again, hagain, hon⟩ := hin
      rw [List.append_cons] at hagain
      constructor
      · intro ⟨new, hnew, ha⟩
        rw [List.append_cancel_right (hnew.symm.trans hagain)] at ha
        rcases List.mem_append.mp ha with ha | ha
        · exact absurd (hon a ha) hoff
        · exact List.mem_singleton.mp ha
      · intro ha
        exact ⟨_, hagain, List.mem_append_right again (List.mem_singleton.mpr ha)⟩

-- The `finish` inside, when every row is passed.
theorem cleanedUp_stepOut_iff (s : Debugger κ) :
    CleanedUp s (stepOut env s).2 ↔ RowScan.passed.CleansUp env s := by
  have hframe : Frame _ (stepOut env s).2 := stepOut_frame
  unfold RowScan.CleansUp
  rw [← FinishStage.memory_eq_iff, ← Writes.overlay_eq_iff, ← stepOut_mem]
  constructor
  · rintro h x ⟨a, rfl, ⟨hon, hpresent⟩ | ⟨hoff, harms⟩⟩
    · exact ((h.user a hon).2 hpresent).trans hpresent.symm
    · exact (h.temporary a ((inserted_iff_arms hoff).mpr harms) hoff).2
  · intro h
    refine ⟨fun a hin hoff => ⟨?_, ?_⟩, fun a hon => ⟨?_, fun hpresent => ?_⟩⟩
    · rwa [hframe.breakpoints]
    · exact h _ ⟨a, rfl, .inr ⟨hoff, (inserted_iff_arms hoff).mp hin⟩⟩
    · rwa [hframe.breakpoints]
    · exact (h _ ⟨a, rfl, .inl ⟨hon, hpresent⟩⟩).trans hpresent

end Finish

-- `next` that ends before it has changed anything.
theorem cleanedUp_of_same (h : LooksUp s t) (hin : t.inserted = s.inserted) : CleanedUp s t := by
  refine ⟨fun a hnew => ?_, fun a hon => ⟨?_, fun hpresent => ?_⟩⟩
  · obtain ⟨new, hnew, ha⟩ := hnew
    have hnil : new = [] := List.append_left_eq_self.mp (hnew.symm.trans hin)
    rw [hnil] at ha
    cases ha
  · rwa [h.breakpoints]
  · rwa [h.debugee]

theorem cleanedUp_stepInRun_iff (highPc : UWORD) (rows : List LineRow) (s : Debugger κ) :
    CleanedUp s (stepInRun env highPc rows rows s).2 ↔
      (scanRows s.breakpoints s.loadAddress highPc rows).CleansUp env s := by
  generalize ht : (stepInRun env highPc rows rows s).2 = t
  have hscan := stepInInstall_scan env highPc rows s
  cases hrows : scanRows s.breakpoints s.loadAddress highPc rows with
  | passed =>
      rw [hrows] at hscan
      have hafter := stepInFinish_state env highPc rows s
      have ht' := ht.symm.trans ((congrArg Prod.snd (Action.bind_of_ok hscan _)).trans hafter)
      rw [ht']
      exact cleanedUp_stepOut_iff s
  | failed =>
      rw [hrows] at hscan
      have ht' : t = s := ht.symm.trans (congrArg Prod.snd (Action.bind_of_error hscan _))
      rw [ht']
      exact iff_of_true (cleanedUp_of_same ⟨rfl, rfl, rfl, rfl⟩ rfl) trivial
  | unset addr =>
      rw [hrows] at hscan
      obtain ⟨hoff, rest, hinstall⟩ := hscan
      have hrun : stepInRun env highPc rows rows s =
          (installRow env addr >>= fun _ => stepInRun env highPc rest rows) s := by
        refine Eq.trans ?_ (congrFun (Action.bind_assoc _ _ _) s)
        rw [Action.bind_apply, ← hinstall]
        rfl
      by_cases hrefused : Refused env s
      · obtain ⟨res, u, hu, hlook, hin⟩ := installRow_refused addr hrefused
        have ht' := ht.symm.trans (congrArg Prod.snd (hrun.trans (Action.bind_of_error hu _)))
        rw [ht']
        exact iff_of_true (cleanedUp_of_same hlook hin) hrefused
      · obtain ⟨u, hu, hon, hin⟩ := installRow_granted addr hrefused
        have ht' : t = (stepInRun env highPc rest rows u).2 :=
          ht.symm.trans (congrArg Prod.snd (hrun.trans (Action.bind_of_ok hu _)))
        obtain ⟨new, hnew⟩ :
            ∃ new, (stepInRun env highPc rest rows u).2.inserted = new ++ u.inserted :=
          stepInRun_inserted highPc rest rows u
        refine iff_of_false (fun h => ?_) hrefused
        have hadded : Inserted s t addr := by
          refine ⟨new ++ [addr], ?_, by simp⟩
          rw [ht', hnew, hin, List.append_cons]
        refine (h.temporary addr hadded hoff).1 ?_
        rw [ht']
        exact stepInRun_enabled highPc rest rows u addr hon

-- `next` that has found its line table cleans up exactly if every row up to `high_pc`
-- has a breakpoint of the user's already and the `finish` inside, the program's own writes
-- included, leaves no trace; or if it ends before its first breakpoint is set.
theorem cleansUp_iff {rows : List LineRow} {highPc : UWORD}
    (hlookup : stepInLookup env s = (.ok (rows, highPc), t)) :
    let u := (stepIn env s).2
    CleanedUp s u ↔ (scanRows s.breakpoints s.loadAddress highPc rows).CleansUp env t := by
  intro u
  have hlook := stepInLookup_looksUp env s
  have hin := (inserted_quiet env).stepInLookup s
  rw [hlookup] at hlook hin
  have hu : u = (stepInRun env highPc rows rows t).2 :=
    congrArg Prod.snd (Action.bind_of_ok hlookup _)
  have hiff : CleanedUp t (stepInRun env highPc rows rows t).2 ↔ _ :=
    cleanedUp_stepInRun_iff highPc rows t
  rw [hlook.breakpoints, hlook.loadAddress] at hiff
  rw [hu, ← hiff]
  have hsame : ∀ a, Inserted s u a ↔ Inserted t u a := by
    intro a
    unfold Inserted
    rw [hin]
  rw [hu] at hsame
  constructor
  · intro h
    refine ⟨fun a => ?_, fun a => ?_⟩
    · rw [hlook.breakpoints, hlook.debugee, ← hsame]
      exact h.temporary a
    · rw [hlook.breakpoints, hlook.debugee]
      exact h.user a
  · intro h
    refine ⟨fun a => ?_, fun a => ?_⟩
    · rw [← hlook.breakpoints, ← hlook.debugee, hsame]
      exact h.temporary a
    · rw [← hlook.breakpoints, ← hlook.debugee]
      exact h.user a

section Examples

-- The leaf function with a row at its entry, a breakpoint of the user's there, and the
-- debugee stopped at it.
def atLeafBreakpoint : Debugger Unit :=
  { atPrompt leafMem 0x2000 with
    dwarfDbg := oneFunction 0x2000 0x2008 [0x2000]
    breakpoints := Table.empty.set ⟨0x2000, readWord leafMem 0x2000, true, false⟩
    debugee := ⟨Function.update leafMem 0x2000 int3, { rip := 0x2000 }, ()⟩ }

theorem cleansUp_on_breakpoint :
    CleanedUp atLeafBreakpoint (stepIn (leafEnv false) atLeafBreakpoint).2 := by
  have hrows : (stepInLookup (leafEnv false) atLeafBreakpoint).1 =
      .ok ([{ lineaddr := .ok 0x2000 }], 0x2008) := by
    decide +kernel
  have hscan : scanRows atLeafBreakpoint.breakpoints atLeafBreakpoint.loadAddress 0x2008
      [{ lineaddr := .ok 0x2000 }] = .passed := by
    decide +kernel
  have hstage : finishStage (leafEnv false) (stepInLookup (leafEnv false) atLeafBreakpoint).2 =
      .armed 0x2008 (.restored true) := by
    decide +kernel
  have hword : let t := (stepInLookup (leafEnv false) atLeafBreakpoint).2
      ∀ i < 8, byteOf (setLowByte (t.breakpoints.lookup t.debugee.regs.rip).savedData int3) i =
        t.debugee.mem (t.debugee.pc + i) := by
    decide +kernel
  generalize hlookup : stepInLookup (leafEnv false) atLeafBreakpoint = out at hrows hstage hword
  obtain ⟨res, t⟩ := out
  obtain rfl : res = .ok ([{ lineaddr := .ok 0x2000 }], 0x2008) := hrows
  have h := cleansUp_iff hlookup
  rw [hscan] at h
  refine h.mpr ⟨?_, fun x _ byte hbyte => ?_⟩
  · rw [hstage]
    exact fun i hi _ _ => hword i hi
  · rw [finishWrites_untouched fun _ => rfl] at hbyte
    cases hbyte

-- One row and no breakpoint of the user's: `next` from the middle of the function succeeds
-- at the return address and leaves the breakpoint at the row.
def atLeafMiddle : Debugger Unit :=
  { atPrompt leafMem 0x2004 with dwarfDbg := oneFunction 0x2000 0x2008 [0x2000] }

theorem leaves_breakpoint :
    let t := (stepIn (leafEnv false) atLeafMiddle).2
    (stepIn (leafEnv false) atLeafMiddle).1 = .ok () ∧ t.debugee.regs.rip = 0x2008 ∧
      t.debugee.mem 0x2000 = int3 ∧ ¬CleanedUp atLeafMiddle t := by
  intro t
  have hin : t.inserted = [0x2008, 0x2000] := by
    decide +kernel
  have hon : (t.breakpoints.lookup 0x2000).enabled = true := by
    decide +kernel
  refine ⟨by decide +kernel, by decide +kernel, by decide +kernel, fun h => ?_⟩
  have hbefore : atLeafMiddle.inserted = [] := rfl
  have hnew : Inserted atLeafMiddle t 0x2000 := by
    refine ⟨[0x2008, 0x2000], ?_, by simp⟩
    rw [hin, hbefore, List.append_nil]
  exact (h.temporary 0x2000 hnew (Table.not_enabledAt_empty _)).1
    ((Table.lookup_enabled_iff _ _).mp hon)

end Examples

end VDebugger
