import VDebugger.Next.Cleanup

namespace VDebugger

open Machine

section Accounting

variable {code : Set Nat} {orig mem : Memory} {table other : Table} {x : Nat} {byte : Byte}

-- A byte at `x` that is the program's own, or the int3 of a breakpoint that the table has
-- enabled.
def AccountedFor (orig : Memory) (table : Table) (x : Nat) (byte : Byte) : Prop :=
  byte = orig x ∨ byte = int3 ∧ ∃ a : WORD, a.toNat = x ∧ table.enabledAt a

def Accounts (code : Set Nat) (orig : Memory) (table : Table) (mem : Memory) : Prop :=
  ∀ x ∈ code, AccountedFor orig table x (mem x)

-- A word that may be written back at `a`.
def Fits (code : Set Nat) (orig : Memory) (table : Table) (a : WORD) (word : Word) : Prop :=
  ∀ i < 8, a.toNat + i ∈ code → AccountedFor orig table (a.toNat + i) (byteOf word i)

theorem AccountedFor.mono (h : AccountedFor orig table x byte)
    (hmore : ∀ a, table.enabledAt a → other.enabledAt a) : AccountedFor orig other x byte := by
  rcases h with h | ⟨h, a, ha, hon⟩
  · exact .inl h
  · exact .inr ⟨h, a, ha, hmore a hon⟩

theorem AccountedFor.enabled {a : WORD} (h : table.enabledAt a) :
    AccountedFor orig table a.toNat int3 :=
  .inr ⟨rfl, a, rfl, h⟩

theorem Fits.mono {a : WORD} {word : Word} (h : Fits code orig table a word) {fewer : Set Nat}
    (hsub : fewer ⊆ code) : Fits fewer orig table a word :=
  fun i hi hin => h i hi (hsub hin)

namespace Accounts

theorem congr (h : Accounts code orig table mem) {after : Memory}
    (hsame : ∀ x ∈ code, after x = mem x) : Accounts code orig table after := by
  intro x hx
  rw [hsame x hx]
  exact h x hx

theorem mono (h : Accounts code orig table mem) {fewer : Set Nat} (hsub : fewer ⊆ code) :
    Accounts fewer orig table mem :=
  fun x hx => h x (hsub hx)

theorem mark (h : Accounts code orig table mem) {a : Nat}
    (ha : a ∈ code → AccountedFor orig table a int3) :
    Accounts code orig table (Function.update mem a int3) := by
  intro x hx
  by_cases hat : x = a
  · subst hat
    rw [Function.update_self]
    exact ha hx
  · rw [Function.update_of_ne hat]
    exact h x hx

theorem of_writeWord {a : WORD} {word : Word}
    (h : ∀ x ∈ code, ¬(a.toNat ≤ x ∧ x < a.toNat + 8) → AccountedFor orig table x (mem x))
    (hfits : Fits code orig table a word) :
    Accounts code orig table (writeWord mem a.toNat word) := by
  intro x hx
  by_cases hin : a.toNat ≤ x ∧ x < a.toNat + 8
  · have hbyte := hfits (x - a.toNat) (by omega) (by rwa [Nat.add_sub_cancel' hin.1])
    rw [Nat.add_sub_cancel' hin.1] at hbyte
    rwa [writeWord_inside _ _ _ _ hin.1 hin.2]
  · rw [writeWord_outside _ _ _ _ (by omega)]
    exact h x hx hin

theorem writeWord (h : Accounts code orig table mem) {a : WORD} {word : Word}
    (hfits : Fits code orig table a word) :
    Accounts code orig table (writeWord mem a.toNat word) :=
  of_writeWord (fun x hx _ => h x hx) hfits

end Accounts

end Accounting

section Commands

variable {κ : Type} {env : Env κ} {code : Set Nat} {orig : Memory} {s t : Debugger κ}

-- The code holds the program's own bytes but for the breakpoints that the table has enabled.
def Accounted (code : Set Nat) (orig : Memory) (s : Debugger κ) : Prop :=
  Accounts code orig s.breakpoints s.debugee.mem

-- The word filed for a breakpoint at the pc may be written back.
def LiftFits (code : Set Nat) (orig : Memory) (s : Debugger κ) : Prop :=
  s.breakpoints.enabledAt s.debugee.regs.rip →
    Fits code orig s.breakpoints s.debugee.regs.rip
      (s.breakpoints.lookup s.debugee.regs.rip).savedData

-- So before each pass of `step`.
def LiftsFit (env : Env κ) (code : Set Nat) (orig : Memory) : Nat → Debugger κ → Prop
  | 0, _ => True
  | times + 1, s =>
      LiftFits code orig s ∧
        ∀ t, handleStepPass env s = (.ok (), t) → LiftsFit env code orig times t

-- `finish` takes the int3 at the return address away again, or that int3 is accounted for.
def FinishStage.Disarms (code : Set Nat) (orig : Memory) (table : Table) : FinishStage → Prop
  | .unarmed => True
  | .armed _ (.restored _) => True
  | .armed ra _ => ra.toNat ∈ code → AccountedFor orig table ra.toNat int3

-- Every word that the command writes back may be written back, and `finish` and `next`
-- leave no int3 at the return address.
def Clean (env : Env κ) (code : Set Nat) (orig : Memory) (s : Debugger κ) : Command → Prop
  | .enable _ => True
  | .disable a => ∀ t, handleCommand env (.disable a) s = (.ok (), t) →
      Fits code orig t.breakpoints a (s.breakpoints.lookup a).savedData
  | .writeRegister _ _ => True
  | .step times => LiftsFit env code orig times.toNat s
  | .cont => LiftFits code orig s
  | .finish => LiftFits code orig s ∧ (finishStage env s).Disarms code orig s.breakpoints
  | .next => ∀ rows highPc t u, stepInLookup env s = (.ok (rows, highPc), t) →
      stepInInstall env highPc rows t = (.ok (), u) →
        LiftFits code orig u ∧ (finishStage env u).Disarms code orig u.breakpoints

-- The debugger at the prompts of a session. A command that only looks things up changes
-- nothing here, and one that fails leaves the session going unless the debugee is gone.
inductive SessionFrom (env : Env κ) (allowed : Debugger κ → Command → Prop) (start : Debugger κ) :
    Debugger κ → Prop
  | start : SessionFrom env allowed start start
  | looked {t u : Debugger κ} (h : SessionFrom env allowed start t) (hlook : LooksUp t u) :
      SessionFrom env allowed start u
  | ran {t u : Debugger κ} {result : Outcome Unit} (h : SessionFrom env allowed start t)
      (command : Command) (hallowed : allowed t command)
      (hrun : handleCommand env command t = (result, u)) (hreturns : result ≠ .pending)
      (halive : result ≠ .error Errors.DEBUGEE_EXITED.code) : SessionFrom env allowed start u

-- The debugee has not written to its code.
def Unwritten (code : Set Nat) (s : Debugger κ) : Prop := ∀ x ∈ code, s.written x = false

theorem Onward.unwritten (h : Onward s t) (ht : Unwritten code t) : Unwritten code s :=
  fun x hx => h.written x (ht x hx)

theorem Frame.accounts {mem : Memory} (h : Frame (s.withMem mem) t) (ht : Unwritten code t)
    (hmem : Accounts code orig s.breakpoints mem) :
    Accounted code orig t := by
  unfold Accounted
  rw [h.breakpoints]
  exact hmem.congr fun x hx => h.mem x (ht x hx)

theorem Frame.accounted (h : Frame s t) (ht : Unwritten code t) (hs : Accounted code orig s) :
    Accounted code orig t := by
  unfold Accounted
  rw [h.breakpoints]
  exact Accounts.congr hs fun x hx => h.mem x (ht x hx)

theorem stepOverBreakpoint_accounted (env : Env κ) (hfits : LiftFits code orig s)
    (ht : Unwritten code (stepOverBreakpoint env s).2)
    (h : Accounted code orig s) :
    Accounted code orig (stepOverBreakpoint env s).2 := by
  have hcases := stepOverBreakpoint_cases env s
  generalize stepOverBreakpoint env s = out at hcases ht ⊢
  cases hcases with
  | skipped log => exact h
  | stepped t hon hframe =>
      exact hframe.accounts ht ((h.writeWord (hfits hon)).mark fun _ => .enabled hon)
  | lifted res t hres hon hframe =>
      exact hframe.accounts ht (h.writeWord (hfits hon))
  | refused log => exact h

theorem handleStepPass_accounted (env : Env κ) (hfits : LiftFits code orig s)
    (ht : Unwritten code (handleStepPass env s).2)
    (h : Accounted code orig s) :
    Accounted code orig (handleStepPass env s).2 := by
  obtain ⟨read, log, -, heq⟩ := handleStepPass_eq env s
  cases hon : (s.breakpoints.lookup read).enabled with
  | true =>
      rw [hon, if_pos rfl] at heq
      rw [heq] at ht ⊢
      exact stepOverBreakpoint_accounted (s := { s with log }) env hfits ht h
  | false =>
      rw [hon, if_neg (by decide)] at heq
      rw [heq] at ht ⊢
      exact (stepInstruction_frame { s with log }).accounted ht h

-- The passes of `step`, up to the last or the first that fails.
theorem handleStepLoop_accounted {times : Nat} (hfits : LiftsFit env code orig times s)
    (ht : Unwritten code (handleStepLoop env times s).2)
    (h : Accounted code orig s) :
    Accounted code orig (handleStepLoop env times s).2 := by
  induction times generalizing s with
  | zero => exact h
  | succ times ih =>
      have hpass := handleStepPass_accounted env hfits.1
      unfold handleStepLoop at ht ⊢
      rcases hrun : handleStepPass env s with ⟨_ | _ | _, mid⟩ <;> rw [hrun] at hpass
      · rw [Action.bind_of_ok hrun] at ht ⊢
        have honward : Onward mid (handleStepLoop env times mid).2 := handleStepLoop_onward times mid
        exact ih (hfits.2 mid hrun) ht (hpass (honward.unwritten ht) h)
      · rw [Action.bind_of_error hrun] at ht ⊢
        exact hpass ht h
      · rw [Action.bind_of_pending hrun] at ht ⊢
        exact hpass ht h

theorem handleContinue_accounted (hfits : LiftFits code orig s)
    (ht : Unwritten code (handleContinue env s).2)
    (h : Accounted code orig s) :
    Accounted code orig (handleContinue env s).2 := by
  have hover := stepOverBreakpoint_accounted env hfits
  unfold handleContinue at ht ⊢
  rcases hrun : stepOverBreakpoint env s with ⟨_ | _ | _, mid⟩ <;> rw [hrun] at hover
  · rw [Action.bind_of_ok hrun] at ht ⊢
    have hrest : (do
        debugContinue env
        waitAndHandleSignal env : DebuggerM κ Unit).Keeps Frame :=
      Action.Keeps.bind Frame.trans debugContinue_frame fun _ => waitAndHandleSignal_frame
    have hframe := hrest mid
    have hmid := hover (hframe.onward.unwritten ht) h
    exact hframe.accounted ht hmid
  · rw [Action.bind_of_error hrun] at ht ⊢
    exact hover ht h
  · rw [Action.bind_of_pending hrun] at ht ⊢
    exact hover ht h

-- Only a stage behind the lift needs the word filed for the breakpoint at the pc.
theorem runStage_enabled {breakpoint : Breakpoint}
    (h : runStage env breakpoint s ≠ .started ∧ runStage env breakpoint s ≠ .restored false) :
    s.breakpoints.enabledAt s.debugee.regs.rip := by
  by_contra hoff
  unfold runStage at h
  rcases stepOverLift_cases env s with ⟨-, log, hlift⟩ | ⟨hon, -⟩ | ⟨-, log, hlift⟩
  · rw [hlift] at h
    dsimp only at h
    rcases endStage_frame env { s with log } breakpoint false with ⟨he, -⟩ | ⟨he, -⟩
    · exact h.2 he
    · exact h.1 he
  · exact hoff hon
  · rw [hlift] at h
    exact h.1 rfl

theorem finishStage_enabled {ra : UWORD} {stage : RunStage}
    (h : finishStage env s = .armed ra stage) (hlifted : stage ≠ .started ∧ stage ≠ .restored false) :
    s.breakpoints.enabledAt s.debugee.regs.rip := by
  have hstate := unwindFrameBase_state env s
  unfold finishStage at h
  rcases hunwind : unwindFrameBase env s with ⟨_ | _ | _, t⟩ <;> rw [hunwind] at hstate h <;>
    subst hstate
  · next frameBase =>
    cases frameBase with
    | none => exact nomatch h
    | some frameBase =>
        dsimp only at h
        rcases stepOutArm_cases env t frameBase with ⟨log, harm⟩ | ⟨_, log, harm⟩
        · rw [harm] at h
          cases h
          have hon := runStage_enabled hlifted
          exact hon
        · rw [harm] at h
          exact nomatch h
  · exact nomatch h
  · exact nomatch h

theorem finishStage_accounts (hfits : LiftFits code orig s)
    (hdisarms : (finishStage env s).Disarms code orig s.breakpoints)
    (h : Accounted code orig s) :
    Accounts code orig s.breakpoints ((finishStage env s).memory s) := by
  cases hstage : finishStage env s with
  | unarmed => exact h
  | armed ra stage =>
      rw [hstage] at hdisarms
      cases stage with
      | started => exact h.mark hdisarms
      | lifted =>
          have hon := finishStage_enabled hstage (by decide)
          exact (h.mark hdisarms).writeWord (hfits hon)
      | putBack =>
          have hon := finishStage_enabled hstage (by decide)
          exact ((h.mark hdisarms).writeWord (hfits hon)).mark fun _ => .enabled hon
      | restored stepped =>
          -- What stands at the return address in between is overwritten at the end.
          have hsub : code \ {ra.toNat} ⊆ code := fun x hx => hx.1
          have harmed : Accounts (code \ {ra.toNat}) orig s.breakpoints
              (Function.update s.debugee.mem ra.toNat int3) :=
            (Accounts.mono h hsub).mark fun hin => absurd rfl hin.2
          have hback : (returnBreakpoint s ra).savedData = readWord s.debugee.mem ra.toNat := rfl
          intro x hx
          simp only [FinishStage.memory, RunStage.memory, returnBreakpoint_memAddr, hback,
            writeWord_readWord_apply]
          split
          · exact h x hx
          · next hout =>
            have hne : x ≠ ra.toNat := by omega
            have hin : x ∈ code \ {ra.toNat} := ⟨hx, hne⟩
            cases stepped with
            | false => exact harmed x hin
            | true =>
                have hon := finishStage_enabled hstage (by decide)
                have hlifted := harmed.writeWord ((hfits hon).mono hsub)
                exact hlifted.mark (fun _ => .enabled hon) x hin

theorem stepOut_accounted (hfits : LiftFits code orig s)
    (hdisarms : (finishStage env s).Disarms code orig s.breakpoints)
    (ht : Unwritten code (stepOut env s).2) (h : Accounted code orig s) :
    Accounted code orig (stepOut env s).2 :=
  stepOut_frame.accounts ht (finishStage_accounts hfits hdisarms h)

-- A breakpoint that is filed accounts for its int3.
theorem Accounted.save (h : Accounted code orig s) {bp : Breakpoint} (hon : bp.enabled = true)
    {log : List (Request × Bool)} :
    Accounted code orig
      { s.withMem (Function.update s.debugee.mem bp.memAddr.toNat int3) with
        breakpoints := s.breakpoints.set bp
        log } := by
  have hmore : ∀ a, s.breakpoints.enabledAt a → (s.breakpoints.set bp).enabledAt a :=
    fun a ha => (Table.enabledAt_set _ bp hon a).mpr (.inr ha)
  have hset : Accounts code orig (s.breakpoints.set bp) s.debugee.mem :=
    fun x hx => (h x hx).mono hmore
  exact hset.mark fun _ => .enabled ((Table.enabledAt_set _ bp hon _).mpr (.inl rfl))

theorem installRow_accounted (addr : UWORD) :
    (installRow env addr).Preserves (Accounted code orig) := by
  intro s h
  rcases installRow_cases env addr s with ⟨log, hrun⟩ | ⟨_, log, hrun⟩
  · rw [hrun]
    exact h.save rfl
  · rw [hrun]
    exact h

theorem stepInInstall_accounted (env : Env κ) (highPc : UWORD) (rows : List LineRow) :
    (stepInInstall env highPc rows).Preserves (Accounted code orig) :=
  stepInInstall_keeps env (fun _ => id) (fun _ _ _ h h' hs => h' (h hs)) installRow_accounted
    highPc rows

theorem LooksUp.accounted (h : LooksUp s t) (hs : Accounted code orig s) :
    Accounted code orig t := by
  unfold Accounted
  rw [h.breakpoints, h.debugee]
  exact hs

theorem stepIn_accounted (hclean : Clean env code orig s .next)
    (ht : Unwritten code (stepIn env s).2) (h : Accounted code orig s) :
    Accounted code orig (stepIn env s).2 := by
  have hlook := stepInLookup_looksUp env s
  unfold stepIn at ht ⊢
  rcases hlookup : stepInLookup env s with ⟨⟨rows, highPc⟩ | _ | _, mid⟩ <;> rw [hlookup] at hlook
  · have hmid := hlook.accounted h
    rw [Action.bind_of_ok hlookup] at ht ⊢
    have hinstall := stepInInstall_accounted env highPc rows mid hmid
    dsimp only at ht ⊢
    rcases hrun : stepInInstall env highPc rows mid with ⟨_ | _ | _, u⟩ <;> rw [hrun] at hinstall
    · obtain ⟨hfits, hdisarms⟩ := hclean rows highPc mid u hlookup hrun
      rw [Action.bind_of_ok hrun] at ht ⊢
      have hfinish := stepInFinish_state env highPc rows u
      unfold stepInFinish at hfinish
      rw [hfinish] at ht ⊢
      exact stepOut_accounted hfits hdisarms ht hinstall
    · rw [Action.bind_of_error hrun]
      exact hinstall
    · rw [Action.bind_of_pending hrun]
      exact hinstall
  · rw [Action.bind_of_error hlookup]
    exact hlook.accounted h
  · rw [Action.bind_of_pending hlookup]
    exact hlook.accounted h

theorem handleBreakpointAt_enable_accounted (a : WORD) (h : Accounted code orig s) :
    Accounted code orig (handleBreakpointAt env .ENABLE_BREAKPOINT a s).2 := by
  rcases handleBreakpointAt_enable_cases env s a with ⟨log, hrun⟩ | ⟨-, log, hrun⟩
  · let filed : Breakpoint := ⟨a, readWord s.debugee.mem a.toNat, true, false⟩
    have hon : filed.enabled = true := rfl
    rw [hrun]
    exact h.save hon
  · rw [hrun]
    exact h

-- The breakpoint that goes is within the word that is written back.
theorem handleBreakpointAt_disable_accounted {a : WORD}
    (hclean : Clean env code orig s (.disable a)) (h : Accounted code orig s) :
    Accounted code orig (handleBreakpointAt env .DISABLE_BREAKPOINT a s).2 := by
  rcases handleBreakpointAt_disable_cases env s a with ⟨log, hrun⟩ | ⟨-, log, hrun⟩
  · have hfits := hclean _ hrun
    rw [hrun]
    apply Accounts.of_writeWord _ hfits
    intro x hx hout
    rcases h x hx with hsame | ⟨hint3, b, rfl, hon⟩
    · exact .inl hsame
    · have hne : b ≠ a := by
        rintro rfl
        omega
      refine .inr ⟨hint3, b, rfl, (Table.enabledAt_delete _ _ _).mpr ⟨?_, hon⟩⟩
      simpa using hne
  · rw [hrun]
    exact h

theorem handleRegisterWrite_frame (reg : REGISTER) (value : WORD) :
    (handleRegisterWrite env reg value).Keeps Frame := by
  apply Action.Keeps.bind Frame.trans getRegsStruct_frame
  intro _
  refine Action.Keeps.bind Frame.trans (Action.Keeps.attempt ?_) fun _ => Frame.refl
  exact Action.Keeps.bind Frame.trans getRegsStruct_frame fun regs => setRegsStruct_frame _

theorem handleCommand_accounted {command : Command} (hclean : Clean env code orig s command)
    (ht : Unwritten code (handleCommand env command s).2) (h : Accounted code orig s) :
    Accounted code orig (handleCommand env command s).2 := by
  cases command with
  | enable a => exact handleBreakpointAt_enable_accounted a h
  | disable a => exact handleBreakpointAt_disable_accounted hclean h
  | writeRegister reg value => exact (handleRegisterWrite_frame reg value s).accounted ht h
  | step times => exact handleStepLoop_accounted hclean ht h
  | cont => exact handleContinue_accounted hclean ht h
  | finish => exact stepOut_accounted hclean.1 hclean.2 ht h
  | next => exact stepIn_accounted hclean ht h

end Commands

section Sessions

variable {κ : Type} {env : Env κ} {code : Set Nat} {s t : Debugger κ}

theorem SessionFrom.succeeded {allowed : Debugger κ → Command → Prop}
    (h : SessionFrom env allowed s t) (command : Command) (hallowed : allowed t command)
    (hok : (handleCommand env command t).1 = .ok ()) :
    SessionFrom env allowed s (handleCommand env command t).2 :=
  h.ran command hallowed (Prod.ext hok rfl) (by simp) (by simp)

theorem handleCommand_unwritten {command : Command}
    (ht : Unwritten code (handleCommand env command s).2) : Unwritten code s :=
  fun x hx => (written_kept env).handleCommand command s x (ht x hx)

theorem SessionFrom.accounted (h : SessionFrom env (Clean env code s.debugee.mem) s t)
    (hwritten : Unwritten code t) : Accounted code s.debugee.mem t := by
  induction h with
  | start => exact fun x _ => .inl rfl
  | @looked t u h hlook ih =>
      have ht : Unwritten code t := fun x hx => by
        rw [← hlook.written]
        exact hwritten x hx
      exact hlook.accounted (ih ht)
  | @ran t u result h command hallowed hrun _ _ ih =>
      have hstep : Unwritten code (handleCommand env command t).2 → Accounted code _ t →
        Accounted code _ (handleCommand env command t).2 := handleCommand_accounted hallowed
      have ht : Unwritten code (handleCommand env command t).2 → Unwritten code t :=
        handleCommand_unwritten
      rw [hrun] at hstep ht
      exact hstep hwritten (ih (ht hwritten))

-- A debugger that has only ever written back what belongs there leaves the code as it was
-- exactly if no breakpoint is left in it at the end: nothing behind the prompt removes one.
theorem detached_as_it_was (hsession : SessionFrom env (Clean env code s.debugee.mem) s t)
    (hwritten : Unwritten code t) :
    (∀ x ∈ code, t.debugee.mem x = s.debugee.mem x) ↔
      ∀ a : WORD, a.toNat ∈ code → t.breakpoints.enabledAt a →
        t.debugee.mem a.toNat = int3 → s.debugee.mem a.toNat = int3 := by
  have haccounted := hsession.accounted hwritten
  constructor
  · intro h a ha _ hint3
    exact (h _ ha).symm.trans hint3
  · intro h x hx
    rcases haccounted x hx with hsame | ⟨hint3, a, rfl, hon⟩
    · exact hsame
    · rw [hint3, h a hx hon hint3]

end Sessions

section Examples

def nopCode : Set Nat := {x | 0x2000 ≤ x ∧ x < 0x2010}

def nopStart : Debugger Unit := atPrompt (fun _ => 0x90) 0x2000

-- After `break enable 2001`, after `step 2` and after `break disable 2001`.
def nopEnabled : Debugger Unit := (handleCommand nopEnv (.enable 0x2001) nopStart).2

def nopStepped : Debugger Unit := (handleCommand nopEnv (.step 2) nopEnabled).2

def nopDisabled : Debugger Unit := (handleCommand nopEnv (.disable 0x2001) nopStepped).2

theorem nopEnabled_clean : Clean nopEnv nopCode nopStart.debugee.mem nopEnabled (.step 2) := by
  have hoff : (nopEnabled.breakpoints.lookup nopEnabled.debugee.regs.rip).enabled = false := by
    decide +kernel
  have hword : let t := (handleStepPass nopEnv nopEnabled).2
      ∀ i < 8, byteOf (t.breakpoints.lookup t.debugee.regs.rip).savedData i = 0x90 := by
    decide +kernel
  have hfirst : LiftFits nopCode nopStart.debugee.mem nopEnabled := by
    intro hon
    rw [(Table.lookup_enabled_iff _ _).mpr hon] at hoff
    exact nomatch hoff
  have hsecond : ∀ t, handleStepPass nopEnv nopEnabled = (.ok (), t) →
      LiftFits nopCode nopStart.debugee.mem t := by
    intro t ht _ i hi _
    rw [ht] at hword
    exact .inl (hword i hi)
  have htimes : (2 : WORD).toNat = 2 := rfl
  simp only [Clean, htimes, LiftsFit]
  exact ⟨hfirst, fun t ht => ⟨hsecond t ht, fun _ _ => trivial⟩⟩

theorem detached_without_breakpoint :
    nopStepped.debugee.mem 0x2001 = int3 ∧
      ∀ x ∈ nopCode, nopDisabled.debugee.mem x = nopStart.debugee.mem x := by
  refine ⟨by decide +kernel, ?_⟩
  have hfiled : ∀ i < 8, byteOf (nopStepped.breakpoints.lookup 0x2001).savedData i = 0x90 := by
    decide +kernel
  have henabled : SessionFrom nopEnv (Clean nopEnv nopCode nopStart.debugee.mem) nopStart nopEnabled :=
    SessionFrom.start.succeeded (.enable 0x2001) trivial (by decide +kernel)
  have hstepped : SessionFrom nopEnv (Clean nopEnv nopCode nopStart.debugee.mem) nopStart nopStepped :=
    henabled.succeeded (.step 2) nopEnabled_clean (by decide +kernel)
  have hclean : Clean nopEnv nopCode nopStart.debugee.mem nopStepped (.disable 0x2001) :=
    fun t _ i hi _ => .inl (hfiled i hi)
  have hdisabled : SessionFrom nopEnv (Clean nopEnv nopCode nopStart.debugee.mem) nopStart nopDisabled :=
    hstepped.succeeded (.disable 0x2001) hclean (by decide +kernel)
  have hwritten : Unwritten nopCode nopDisabled := by
    have hleft : ∀ i < 16, nopDisabled.written (0x2000 + i) = false := by
      decide +kernel
    intro x hx
    rw [← Nat.add_sub_cancel' hx.1]
    exact hleft _ (Nat.sub_lt_left_of_lt_add hx.1 hx.2)
  refine (detached_as_it_was hdisabled hwritten).mpr fun a ha hon => ?_
  have hnone : ∀ i < 16, (nopDisabled.breakpoints.lookup (BitVec.ofNat 64 (0x2000 + i))).enabled =
      false := by
    decide +kernel
  have hoff := hnone _ (Nat.sub_lt_left_of_lt_add ha.1 ha.2)
  rw [Nat.add_sub_cancel' ha.1, BitVec.ofNat_toNat, BitVec.setWidth_eq,
    (Table.lookup_enabled_iff _ _).mpr hon] at hoff
  exact nomatch hoff

-- `break enable 2001`, `exit`
theorem detached_with_int3 :
    ¬∀ t, SessionFrom nopEnv (fun _ _ => True) nopStart t → Unwritten nopCode t →
      ∀ x ∈ nopCode, t.debugee.mem x = nopStart.debugee.mem x := by
  intro h
  have hsession : SessionFrom nopEnv (fun _ _ => True) nopStart
      (handleCommand nopEnv (.enable 0x2001) nopStart).2 :=
    .ran .start (.enable 0x2001) trivial (Prod.ext (by decide +kernel) rfl) (by simp) (by simp)
  have hbyte := h _ hsession (fun x _ => rfl) 0x2001 ⟨by decide, by decide⟩
  revert hbyte
  decide +kernel

end Examples

end VDebugger
