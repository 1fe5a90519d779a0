import VDebugger.Command.Kept
import VDebugger.Breakpoint.Stepping

namespace VDebugger

open Machine

section Reenable

variable {κ : Type} {env : Env κ} {x : WORD} {word : Word} {s t : Debugger κ}

-- `break enable x`, or a command that runs the debugee.
def Reenabling (x : WORD) (command : Command) : Prop :=
  command = .enable x ∨ (∃ times, command = .step times) ∨ command = .cont

-- The eight bytes that a breakpoint at `x` saves.
def savedBytes (x : WORD) : Set Nat := {a | x.toNat ≤ a ∧ a < x.toNat + 8}

-- The word saved for `x` is `word` as long as `x` is enabled, and the disable after
-- the commands leaves `word` in memory.
def Harmless (env : Env κ) (x : WORD) (word : Word) (s : Debugger κ)
    (commands : List Command) : Prop :=
  Throughout env (fun before t =>
      .enable x ∈ before → (t.breakpoints.lookup x).savedData = word) s commands ∧
    ∀ t, runCommands env (commands ++ [.disable x]) s = (.ok (), t) →
      readWord t.debugee.mem x.toNat = word

-- Every `break enable x` of the sequence reads `word` from memory.
def EnablesFind (env : Env κ) (x : WORD) (word : Word) : List Command → Debugger κ → Prop
  | [], _ => True
  | command :: rest, s =>
      (command = .enable x → readWord s.debugee.mem x.toNat = word) ∧
        ∀ t, handleCommand env command s = (.ok (), t) → EnablesFind env x word rest t

theorem enablesFind_cons {command : Command} {rest : List Command}
    (hc : handleCommand env command s = (.ok (), t)) :
    EnablesFind env x word (command :: rest) s ↔
      (command = .enable x → readWord s.debugee.mem x.toNat = word) ∧
        EnablesFind env x word rest t := by
  simp only [EnablesFind]
  refine and_congr_right fun _ => ⟨fun h => h t hc, fun h u hu => ?_⟩
  rw [hc] at hu
  cases hu
  exact h

theorem handleCommand_run_onward {command : Command}
    (hcommand : (∃ times, command = .step times) ∨ command = .cont)
    (h : handleCommand env command s = (.ok (), t)) : Onward s t := by
  rcases hcommand with ⟨times, rfl⟩ | rfl
  · have honward : Onward s (handleStepLoop env times.toNat s).2 := handleStepLoop_onward _ s
    rwa [show handleStepLoop env times.toNat s = (.ok (), t) from h] at honward
  · have honward : Onward s (handleContinue env s).2 := handleContinue_onward s
    rwa [show handleContinue env s = (.ok (), t) from h] at honward

theorem handleCommand_run_frame {command : Command}
    (hcommand : (∃ times, command = .step times) ∨ command = .cont)
    (hs : Intact s) (hwords : WordsUnwritten s.breakpoints t)
    (h : handleCommand env command s = (.ok (), t)) : Frame s t := by
  rcases hcommand with ⟨times, rfl⟩ | rfl
  · exact handleStepLoop_ok_frame hs hwords h
  · exact handleContinue_ok_frame hs h

-- `on` says whether `x` is enabled at the start. An enable that finds another word
-- saves it, and nothing before the disable or the next enable changes that.
theorem saved_iff_enablesFind {commands : List Command} (on : Prop)
    (hcommands : ∀ command ∈ commands, Reenabling x command)
    (hon : on → (s.breakpoints.lookup x).savedData = word)
    (henable : on ∨ .enable x ∈ commands)
    (hrun : runCommands env (commands ++ [.disable x]) s = (.ok (), t)) :
    (Throughout env (fun before t =>
        on ∨ .enable x ∈ before → (t.breakpoints.lookup x).savedData = word) s commands ∧
      readWord t.debugee.mem x.toNat = word) ↔ EnablesFind env x word commands s := by
  induction commands generalizing s on with
  | nil =>
      have hs := hon (henable.resolve_right List.not_mem_nil)
      obtain ⟨mid, hdisable, hmid⟩ := runCommands_cons_ok.mp hrun
      cases hmid
      obtain ⟨log, rfl⟩ := handleCommand_disable_ok hdisable
      refine iff_of_true ⟨throughout_nil.mpr fun _ => hs, ?_⟩ trivial
      exact (readWord_writeWord _ _ _).trans hs
  | cons command rest ih =>
      obtain ⟨mid, hc, hrest⟩ := runCommands_cons_ok.mp hrun
      have hrestIn : ∀ c ∈ rest, Reenabling x c :=
        fun c hm => hcommands c (List.mem_cons_of_mem _ hm)
      rw [throughout_cons hc, enablesFind_cons hc]
      have hstart : (on ∨ Command.enable x ∈ ([] : List Command)) →
          (s.breakpoints.lookup x).savedData = word :=
        fun h => hon (h.resolve_right List.not_mem_nil)
      rw [and_iff_right hstart]
      rcases hcommands command List.mem_cons_self with rfl | hcommand
      · have hsaved : (mid.breakpoints.lookup x).savedData = readWord s.debugee.mem x.toNat := by
          obtain ⟨log, rfl⟩ := handleCommand_enable_ok hc
          exact congrArg Breakpoint.savedData (Table.lookup_set_self _ _)
        simp only [List.mem_cons, true_or, or_true, true_implies]
        by_cases hw : readWord s.debugee.mem x.toNat = word
        · have hih := ih True hrestIn (fun _ => hsaved.trans hw) (.inl trivial) hrest
          simp only [true_or, true_implies] at hih
          rw [hih, and_iff_right hw]
        · refine iff_of_false (fun h => hw ?_) fun h => hw h.1
          exact hsaved.symm.trans (h.1 [] rest rfl mid rfl)
      · have hne : command ≠ .enable x := by
          rcases hcommand with ⟨_, rfl⟩ | rfl <;> simp
        have honward := handleCommand_run_onward hcommand hc
        have hih := ih on hrestIn (fun h => by rw [honward.breakpoints]; exact hon h)
          (henable.imp_right fun h => (List.mem_cons.mp h).resolve_left hne.symm) hrest
        simpa [hne, hne.symm] using hih

-- What `n` enables at `x` leave in memory and in the table, in a debugee that does
-- not write to the saved bytes. Only the first one finds the original word.
structure Enabled (x : WORD) (word : Word) (n : Nat) (s : Debugger κ) : Prop where
  only : ∀ a, s.breakpoints.enabledAt a ↔ a = x ∧ 0 < n
  memory : readWord s.debugee.mem x.toNat = if n = 0 then word else setLowByte word int3
  saved : (s.breakpoints.lookup x).savedData =
    if n = 0 then 0 else if n = 1 then word else setLowByte word int3

theorem setLowByte_ne (hlow : byteOf word 0 ≠ int3) : setLowByte word int3 ≠ word := by
  intro h
  have hb := byteOf_setLowByte_zero word int3
  rw [h] at hb
  exact hlow hb

theorem setLowByte_setLowByte (byte : Byte) :
    setLowByte (setLowByte word byte) byte = setLowByte word byte := by
  apply word_ext
  intro i hi
  rw [byteOf_setLowByte _ _ _ hi, byteOf_setLowByte _ _ _ hi]
  split <;> rfl

theorem enabled_zero (hempty : s.breakpoints = .empty) :
    Enabled x (readWord s.debugee.mem x.toNat) 0 s where
  only a := by simp [hempty]
  memory := rfl
  saved := by rw [hempty]; rfl

theorem Enabled.intact {n : Nat} (h : Enabled x word n s) : Intact s := by
  intro a ha
  obtain ⟨rfl, hn⟩ := (h.only a).mp ha
  rw [h.memory, h.saved, if_neg (by omega), if_neg (by omega)]
  split
  · rfl
  · exact setLowByte_setLowByte int3 |>.symm

theorem Enabled.enable {n : Nat} (h : Enabled x word n s)
    (hc : handleCommand env (.enable x) s = (.ok (), t)) : Enabled x word (n + 1) t := by
  obtain ⟨log, rfl⟩ := handleCommand_enable_ok hc
  refine ⟨fun a => ?_, ?_, ?_⟩
  · rw [Table.enabledAt_set _ _ rfl, h.only]
    exact ⟨fun hx => ⟨hx.elim id And.left, Nat.succ_pos n⟩, fun hx => .inl hx.1⟩
  · rw [if_neg (by omega)]
    refine (readWord_update _ _ _).trans ?_
    rw [h.memory]
    split
    · rfl
    · exact setLowByte_setLowByte int3
  · rw [Table.lookup_set_self, h.memory, if_neg (Nat.succ_ne_zero n)]
    simp only [Nat.add_eq_right]

theorem Enabled.run {n : Nat} {command : Command} (h : Enabled x word n s)
    (hwritten : ∀ a ∈ savedBytes x, t.written a = false)
    (hcommand : (∃ times, command = .step times) ∨ command = .cont)
    (hc : handleCommand env command s = (.ok (), t)) : Enabled x word n t := by
  have hwords : WordsUnwritten s.breakpoints t := by
    intro a ha i hi
    obtain ⟨rfl, _⟩ := (h.only a).mp ha
    exact hwritten _ ⟨by omega, by omega⟩
  have hframe := handleCommand_run_frame hcommand h.intact hwords hc
  refine ⟨?_, ?_, ?_⟩
  · rw [hframe.breakpoints]
    exact h.only
  · rw [← h.memory]
    exact readWord_congr _ _ _ fun i hi => hframe.mem _ (hwritten _ ⟨by omega, by omega⟩)
  · rw [hframe.breakpoints]
    exact h.saved

-- The first enable finds the original word, and every later one the int3.
theorem enablesFind_iff_count (hwritten : ∀ a ∈ savedBytes x, t.written a = false)
    (hlow : byteOf word 0 ≠ int3) {commands : List Command} {n : Nat}
    (hcommands : ∀ command ∈ commands, Reenabling x command) (h : Enabled x word n s)
    (hrun : runCommands env commands s = (.ok (), t)) :
    EnablesFind env x word commands s ↔
      commands.count (.enable x) = 0 ∨ n + commands.count (.enable x) ≤ 1 := by
  induction commands generalizing s n with
  | nil => simp [EnablesFind]
  | cons command rest ih =>
      obtain ⟨mid, hc, hrest⟩ := runCommands_cons_ok.mp hrun
      have hrestIn : ∀ c ∈ rest, Reenabling x c :=
        fun c hm => hcommands c (List.mem_cons_of_mem _ hm)
      rw [enablesFind_cons hc]
      rcases hcommands command List.mem_cons_self with rfl | hcommand
      · have hfind : readWord s.debugee.mem x.toNat = word ↔ n = 0 := by
          rw [h.memory]
          by_cases hn : n = 0 <;> simp [hn, setLowByte_ne hlow]
        rw [ih hrestIn (h.enable hc) hrest, List.count_cons_self]
        simp only [true_imp_iff, hfind]
        omega
      · have hne : command ≠ .enable x := by
          rcases hcommand with ⟨_, rfl⟩ | rfl <;> simp
        have hmid : ∀ a ∈ savedBytes x, mid.written a = false := by
          intro a ha
          have hlater := (written_kept env).runCommands rest mid a
          rw [hrest] at hlater
          exact hlater (hwritten a ha)
        rw [ih hrestIn (h.run hmid hcommand hc) hrest, List.count_cons_of_ne hne]
        simp [hne]

-- Re-enabling is harmless exactly if every enable finds the original word in memory:
-- if the debugee leaves the saved bytes alone, exactly if there is only one enable.
theorem harmless_iff (x : WORD) (s : Debugger κ) (hempty : s.breakpoints = .empty)
    (hlow : s.debugee.mem x.toNat ≠ int3) (commands : List Command)
    (hcommands : ∀ command ∈ commands, Reenabling x command)
    (henable : .enable x ∈ commands)
    (hrun : (runCommands env (commands ++ [.disable x]) s).1 = .ok ()) :
    let word := readWord s.debugee.mem x.toNat
    let t := (runCommands env (commands ++ [.disable x]) s).2
    (Harmless env x word s commands ↔ EnablesFind env x word commands s) ∧
      ((∀ a ∈ savedBytes x, t.written a = false) →
        (Harmless env x word s commands ↔ commands.count (.enable x) = 1)) := by
  intro word t
  have hrun : runCommands env (commands ++ [.disable x]) s =
      (.ok (), t) := Prod.ext hrun rfl
  have hharmless : Harmless env x word s commands ↔ EnablesFind env x word commands s := by
    rw [← saved_iff_enablesFind False hcommands (fun h => h.elim) (.inr henable) hrun]
    unfold Harmless
    simp only [false_or]
    refine and_congr_right fun _ => ⟨fun h => h _ hrun, fun h u hu => ?_⟩
    rw [hrun] at hu
    cases hu
    exact h
  refine ⟨hharmless, fun hwritten => hharmless.trans ?_⟩
  obtain ⟨mid, hmid, hdisable⟩ := runCommands_append_ok.mp hrun
  have hunwritten : ∀ a ∈ savedBytes x, mid.written a = false := by
    intro a ha
    have hlater := (written_kept env).runCommands [.disable x] mid a
    rw [hdisable] at hlater
    exact hlater (hwritten a ha)
  have hbyte : byteOf word 0 ≠ int3 := by
    rw [byteOf_readWord _ _ _ (by omega)]
    exact hlow
  have hpos : 0 < commands.count (.enable x) := List.count_pos_iff.mpr henable
  rw [enablesFind_iff_count hunwritten hbyte hcommands (enabled_zero hempty) hmid]
  omega

theorem harmless_once :
    let s := atPrompt (fun _ => 0x90) 0x0fff
    Harmless nopEnv 0x1000 (readWord s.debugee.mem 0x1000) s
      [.step 1, .enable 0x1000, .step 2] := by
  have hcommands : ∀ command ∈ [Command.step 1, .enable 0x1000, .step 2],
      Reenabling 0x1000 command := by
    simp [Reenabling]
  have hrun : (runCommands nopEnv ([.step 1, .enable 0x1000, .step 2] ++ [.disable 0x1000])
      (atPrompt (fun _ => 0x90) 0x0fff)).1 = .ok () := by
    decide +kernel
  have hwritten : ∀ i < 8, (runCommands nopEnv ([.step 1, .enable 0x1000, .step 2] ++
      [.disable 0x1000]) (atPrompt (fun _ => 0x90) 0x0fff)).2.written (0x1000 + i) = false := by
    decide +kernel
  have hiff := harmless_iff 0x1000 (atPrompt (fun _ => 0x90) 0x0fff) rfl (by decide)
    _ hcommands (by decide) hrun
  refine (hiff.2 fun a ha => ?_).mpr (by decide)
  obtain ⟨hl, hr⟩ : 0x1000 ≤ a ∧ a < 0x1008 := ha
  have hbyte := hwritten (a - 0x1000) (by omega)
  rwa [Nat.add_sub_cancel' hl] at hbyte

-- Enable 0x1000 twice and disable it once: the word saved last has the int3 in it, and
-- the disable writes that word.
theorem not_harmless_twice :
    let s := atPrompt (fun _ => 0x90) 0x2000
    s.breakpoints = .empty ∧ s.debugee.mem 0x1000 ≠ int3 ∧
      (runCommands nopEnv [.enable 0x1000, .enable 0x1000, .disable 0x1000] s).1 = .ok () ∧
      ¬Harmless nopEnv 0x1000 (readWord s.debugee.mem 0x1000) s
        [.enable 0x1000, .enable 0x1000] := by
  refine ⟨rfl, by decide, rfl, fun h => ?_⟩
  have hword := h.2 _ rfl
  exact absurd (congrArg (byteOf · 0) hword) (by decide)

end Reenable

end VDebugger
