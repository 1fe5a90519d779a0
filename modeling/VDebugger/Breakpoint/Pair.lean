import VDebugger.Command
import VDebugger.Machine.Overlay

namespace VDebugger

open Machine

section Pair

variable {κ : Type} {env : Env κ} {low high : WORD} {image : Memory}

-- Whether the breakpoint at `a` is enabled after a command, if it was `on` before.
def toggle (a : WORD) (on : Bool) : Command → Bool
  | .enable b => if b = a then true else on
  | .disable b => if b = a then false else on
  | _ => on

def enabledAfter (a : WORD) (on : Bool) (commands : List Command) : Bool :=
  commands.foldl (toggle a) on

def Alternates (a : WORD) (on : Bool) : List Command → Prop
  | [] => True
  | command :: rest =>
      (command = .enable a → on = false) ∧ (command = .disable a → on = true) ∧
        Alternates a (toggle a on command) rest

def pairCommands (x y : WORD) : List Command :=
  [.enable x, .disable x, .enable y, .disable y]

def pairMarks (x y : WORD) (onX onY : Bool) : Set Nat :=
  {a | onX = true ∧ a = x.toNat ∨ onY = true ∧ a = y.toNat}

-- The int3s in memory are those of the enabled breakpoints, and every other byte
-- is the original one, after every command.
def NeverDisturbed (env : Env κ) (x y : WORD) (onX onY : Bool) (image : Memory)
    (s : Debugger κ) (commands : List Command) : Prop :=
  Throughout env (fun before t =>
    Overlay int3 (pairMarks x y (enabledAfter x onX before) (enabledAfter y onY before))
      image t.debugee.mem) s commands

-- The word saved at `low` reaches the int3 of `high`.
def Overlaps (low high : WORD) : Prop :=
  low.toNat < high.toNat ∧ high.toNat < low.toNat + 8

-- Every `break disable low` finds `high` enabled exactly if the `break enable low`
-- before it did. `savedHigh` is what that one found.
def Uncrossed (low high : WORD) (onHigh savedHigh : Bool) : List Command → Prop
  | [] => True
  | command :: rest =>
      (command = .disable low → onHigh = savedHigh) ∧
        Uncrossed low high (toggle high onHigh command)
          (if command = .enable low then onHigh else savedHigh) rest

structure PairInv (low high : WORD) (image : Memory) (onLow onHigh savedHigh : Bool)
    (s : Debugger κ) : Prop where
  overlay : Overlay int3 (pairMarks low high onLow onHigh) image s.debugee.mem
  lowWord : onLow = true → ∀ i < 8, byteOf (s.breakpoints.lookup low).savedData i =
    if low.toNat + i = high.toNat ∧ savedHigh = true then int3 else image (low.toNat + i)
  highWord : onHigh = true → ∀ i < 8,
    byteOf (s.breakpoints.lookup high).savedData i = image (high.toNat + i)

theorem pairMarks_comm (x y : WORD) (onX onY : Bool) :
    pairMarks x y onX onY = pairMarks y x onY onX := by
  ext a
  exact or_comm

theorem PairInv.enableLow {s t : Debugger κ} {onHigh savedHigh : Bool} (hlt : low.toNat < high.toNat)
    (hinv : PairInv low high image false onHigh savedHigh s)
    (h : handleCommand env (.enable low) s = (.ok (), t)) :
    PairInv low high image true onHigh onHigh t := by
  obtain ⟨log, rfl⟩ := handleCommand_enable_ok h
  have hne : high ≠ low := fun he => by simp [he] at hlt
  refine ⟨?_, fun _ i hi => ?_, fun hon i hi => ?_⟩
  · have hmark := hinv.overlay.mark low.toNat
    have hset : insert low.toNat (pairMarks low high false onHigh) =
        pairMarks low high true onHigh := by
      ext a
      simp [pairMarks]
    rwa [hset] at hmark
  · rw [Table.lookup_set_self, byteOf_readWord _ _ _ hi]
    obtain ⟨hin, hout⟩ := hinv.overlay (low.toNat + i)
    simp only [pairMarks, Set.mem_ofPred_eq, Bool.false_eq_true, false_and, false_or] at hin hout
    split
    · next hc => exact hin ⟨hc.2, hc.1⟩
    · next hc => exact hout fun hc' => hc ⟨hc'.2, hc'.1⟩
  · rw [Table.lookup_set_of_ne _ _ hne]
    exact hinv.highWord hon i hi

theorem PairInv.enableHigh {s t : Debugger κ} {onLow savedHigh : Bool}
    (hlt : low.toNat < high.toNat)
    (hinv : PairInv low high image onLow false savedHigh s)
    (h : handleCommand env (.enable high) s = (.ok (), t)) :
    PairInv low high image onLow true savedHigh t := by
  obtain ⟨log, rfl⟩ := handleCommand_enable_ok h
  have hne : low ≠ high := fun he => by simp [he] at hlt
  refine ⟨?_, fun hon i hi => ?_, fun _ i hi => ?_⟩
  · have hmark := hinv.overlay.mark high.toNat
    have hset : insert high.toNat (pairMarks low high onLow false) =
        pairMarks low high onLow true := by
      ext a
      simp [pairMarks, or_comm]
    rwa [hset] at hmark
  · rw [Table.lookup_set_of_ne _ _ hne]
    exact hinv.lowWord hon i hi
  · rw [Table.lookup_set_self, byteOf_readWord _ _ _ hi]
    apply (hinv.overlay (high.toNat + i)).2
    simp only [pairMarks, Set.mem_ofPred_eq, Bool.false_eq_true, false_and, or_false, not_and]
    intro _
    omega

theorem PairInv.disableHigh {s t : Debugger κ} {onLow savedHigh : Bool}
    (hlt : low.toNat < high.toNat)
    (hinv : PairInv low high image onLow true savedHigh s)
    (h : handleCommand env (.disable high) s = (.ok (), t)) :
    PairInv low high image onLow false savedHigh t := by
  obtain ⟨log, rfl⟩ := handleCommand_disable_ok h
  have hne : low ≠ high := fun he => by simp [he] at hlt
  refine ⟨?_, fun hon i hi => ?_, fun hon => nomatch hon⟩
  · have hback := hinv.overlay.writeBack high.toNat _ (hinv.highWord rfl) (by
      rintro a (⟨_, rfl⟩ | ⟨_, rfl⟩) ha <;> omega)
    have hset : pairMarks low high onLow true \ {high.toNat} = pairMarks low high onLow false := by
      ext a
      simp only [pairMarks, Set.mem_sdiff, Set.mem_ofPred_eq, Set.mem_singleton_iff, true_and,
        Bool.false_eq_true, false_and, or_false]
      constructor
      · rintro ⟨hl | hh, hn⟩
        · exact hl
        · exact absurd hh hn
      · rintro ⟨hon, rfl⟩
        exact ⟨.inl ⟨hon, rfl⟩, by omega⟩
    rwa [hset] at hback
  · rw [Table.lookup_delete_of_ne _ _ (by simpa using hne)]
    exact hinv.lowWord hon i hi

-- What `break disable low` leaves: the original bytes, and at `high` what stood
-- there when `low` was enabled.
theorem PairInv.disableLow_mem {s t : Debugger κ} {onHigh savedHigh : Bool}
    (hinv : PairInv low high image true onHigh savedHigh s)
    (h : handleCommand env (.disable low) s = (.ok (), t)) (a : Nat)
    (hl : low.toNat ≤ a) (hr : a < low.toNat + 8) :
    t.debugee.mem a = if a = high.toNat ∧ savedHigh = true then int3 else image a := by
  obtain ⟨log, rfl⟩ := handleCommand_disable_ok h
  have hb := hinv.lowWord rfl (a - low.toNat) (by omega)
  rw [show low.toNat + (a - low.toNat) = a by omega] at hb
  exact (writeWord_inside _ _ _ _ hl hr).trans hb

theorem PairInv.disableLow {s t : Debugger κ} {onHigh savedHigh : Bool}
    (hlt : low.toNat < high.toNat)
    (hinv : PairInv low high image true onHigh savedHigh s)
    (h : handleCommand env (.disable low) s = (.ok (), t))
    (hsame : Overlaps low high → image high.toNat = int3 ∨ onHigh = savedHigh) :
    PairInv low high image false onHigh savedHigh t := by
  have hmem := hinv.disableLow_mem h
  obtain ⟨log, rfl⟩ := handleCommand_disable_ok h
  have hne : high ≠ low := fun he => by simp [he] at hlt
  refine ⟨fun a => ?_, fun hon => (nomatch hon), fun hon i hi => ?_⟩
  · simp only [pairMarks, Set.mem_ofPred_eq, Bool.false_eq_true, false_and, false_or]
    by_cases hin : low.toNat ≤ a ∧ a < low.toNat + 8
    · rw [hmem a hin.1 hin.2]
      by_cases ha : a = high.toNat
      · subst a
        rcases hsame ⟨hlt, hin.2⟩ with hi | hs
        · simp [hi]
        · subst hs
          cases onHigh <;> simp
      · simp [ha]
    · have hout : a < low.toNat ∨ low.toNat + 8 ≤ a := by omega
      have ho := hinv.overlay a
      simp only [pairMarks, Set.mem_ofPred_eq, true_and, show a ≠ low.toNat by omega,
        false_or] at ho
      simpa only [Debugger.withMem, writeWord_outside _ _ _ _ hout] using ho
  · rw [Table.lookup_delete_of_ne _ _ (by simpa using hne)]
    exact hinv.highWord hon i hi

theorem PairInv.disableLow_disturbs {s t : Debugger κ} {onHigh savedHigh : Bool}
    (hinv : PairInv low high image true onHigh savedHigh s)
    (h : handleCommand env (.disable low) s = (.ok (), t)) (hover : Overlaps low high)
    (himage : image high.toNat ≠ int3) (hdiff : onHigh ≠ savedHigh) :
    ¬Overlay int3 (pairMarks low high false onHigh) image t.debugee.mem := by
  intro hover'
  obtain ⟨hin, hout⟩ := hover' high.toNat
  rw [hinv.disableLow_mem h _ (by unfold Overlaps at hover; omega) hover.2] at hin hout
  cases onHigh with
  | true =>
      have hs : savedHigh = false := by simpa using hdiff.symm
      simp [pairMarks, hs, himage] at hin
  | false =>
      have hs : savedHigh = true := by simpa using hdiff.symm
      simp [pairMarks, hs, himage.symm] at hout

-- The first command decides whether the pair is disturbed right away. If not, it
-- keeps the invariant, and the rest of the run decides.
theorem neverDisturbed_iff_uncrossed (hlt : low.toNat < high.toNat) {commands : List Command}
    {onLow onHigh savedHigh : Bool} {s t : Debugger κ}
    (hinv : PairInv low high image onLow onHigh savedHigh s)
    (hcommands : ∀ command ∈ commands, command ∈ pairCommands low high)
    (hlow : Alternates low onLow commands) (hhigh : Alternates high onHigh commands)
    (hrun : runCommands env commands s = (.ok (), t)) :
    NeverDisturbed env low high onLow onHigh image s commands ↔
      (Overlaps low high → image high.toNat ≠ int3 →
        Uncrossed low high onHigh savedHigh commands) := by
  induction commands generalizing onLow onHigh savedHigh s with
  | nil =>
      unfold NeverDisturbed
      rw [throughout_nil]
      exact ⟨fun _ _ _ => trivial, fun _ => hinv.overlay⟩
  | cons command rest ih =>
      obtain ⟨mid, hc, hrest⟩ := runCommands_cons_ok.mp hrun
      obtain ⟨hel, hdl, hlow⟩ := hlow
      obtain ⟨heh, hdh, hhigh⟩ := hhigh
      have hne : low ≠ high := fun he => by simp [he] at hlt
      have hmem := hcommands command List.mem_cons_self
      have hrestIn : ∀ c ∈ rest, c ∈ pairCommands low high :=
        fun c hm => hcommands c (List.mem_cons_of_mem _ hm)
      have hsplit : NeverDisturbed env low high onLow onHigh image s (command :: rest) ↔
          NeverDisturbed env low high (toggle low onLow command) (toggle high onHigh command)
            image mid rest := by
        unfold NeverDisturbed
        rw [throughout_cons hc]
        exact and_iff_right hinv.overlay
      rw [hsplit]
      simp only [pairCommands, List.mem_cons, List.not_mem_nil, or_false] at hmem
      rcases hmem with rfl | rfl | rfl | rfl
      · have hoff := hel rfl
        subst hoff
        simp only [toggle, if_true, if_neg hne] at hlow hhigh ⊢
        rw [ih (hinv.enableLow hlt hc) hrestIn hlow hhigh hrest]
        simp [Uncrossed, toggle, hne]
      · have hon := hdl rfl
        subst hon
        simp only [toggle, if_true, if_neg hne] at hlow hhigh ⊢
        by_cases hsame : Overlaps low high → image high.toNat = int3 ∨ onHigh = savedHigh
        · rw [ih (hinv.disableLow hlt hc hsame) hrestIn hlow hhigh hrest]
          simp only [Uncrossed, toggle, if_neg hne, true_implies, reduceCtorEq, if_false]
          grind
        · push Not at hsame
          obtain ⟨hover, himage, hdiff⟩ := hsame
          constructor
          · intro hgood
            exact absurd (hgood [] rest rfl mid rfl)
              (hinv.disableLow_disturbs hc hover himage hdiff)
          · intro hgood
            exact absurd ((hgood hover himage).1 rfl) hdiff
      · have hoff := heh rfl
        subst hoff
        simp only [toggle, if_true, if_neg hne.symm] at hlow hhigh ⊢
        rw [ih (hinv.enableHigh hlt hc) hrestIn hlow hhigh hrest]
        simp [Uncrossed, toggle, hne.symm]
      · have hon := hdh rfl
        subst hon
        simp only [toggle, if_true, if_neg hne.symm] at hlow hhigh ⊢
        rw [ih (hinv.disableHigh hlt hc) hrestIn hlow hhigh hrest]
        simp [Uncrossed, toggle, hne.symm]

theorem pairInv_empty (s : Debugger κ) (low high : WORD) :
    PairInv low high s.debugee.mem false false false s := by
  refine ⟨?_, fun h => (nomatch h), fun h => (nomatch h)⟩
  have hset : pairMarks low high false false = ∅ := by
    ext a
    simp [pairMarks]
  rw [hset]
  exact Overlay.refl _ _

-- The saved words of the two breakpoints undo each other exactly where the upper
-- one lies within the lower one's word, its byte is not an int3 of the program's
-- own, and it was switched between an enable of the lower one and the disable.
theorem neverDisturbed_iff (x y : WORD) (hxy : x ≠ y) (commands : List Command)
    (hcommands : ∀ command ∈ commands, command ∈ pairCommands x y)
    (hx : Alternates x false commands) (hy : Alternates y false commands) (s : Debugger κ)
    (hrun : (runCommands env commands s).1 = .ok ()) :
    NeverDisturbed env x y false false s.debugee.mem s commands ↔
      (Overlaps x y → s.debugee.mem y.toNat = int3 ∨ Uncrossed x y false false commands) ∧
        (Overlaps y x → s.debugee.mem x.toNat = int3 ∨ Uncrossed y x false false commands) := by
  have hrun : runCommands env commands s = (.ok (), (runCommands env commands s).2) :=
    Prod.ext hrun rfl
  rcases Nat.lt_or_gt_of_ne (fun h => hxy (BitVec.eq_of_toNat_eq h)) with hlt | hlt
  · have hno : ¬Overlaps y x := fun h => by unfold Overlaps at h; omega
    rw [neverDisturbed_iff_uncrossed hlt (pairInv_empty s x y) hcommands hx hy hrun]
    simp only [hno, false_implies, and_true, or_iff_not_imp_left, ne_eq]
  · have hno : ¬Overlaps x y := fun h => by unfold Overlaps at h; omega
    have hswap : NeverDisturbed env x y false false s.debugee.mem s commands ↔
        NeverDisturbed env y x false false s.debugee.mem s commands := by
      simp only [NeverDisturbed, pairMarks_comm x y]
    have hcommands' : ∀ command ∈ commands, command ∈ pairCommands y x := by
      intro command hm
      have h := hcommands command hm
      simp only [pairCommands, List.mem_cons, List.not_mem_nil, or_false] at h ⊢
      rcases h with h | h | h | h <;> simp [h]
    rw [hswap, neverDisturbed_iff_uncrossed hlt (pairInv_empty s y x) hcommands' hy hx hrun]
    simp only [hno, false_implies, true_and, or_iff_not_imp_left, ne_eq]

theorem neverDisturbed_nested :
    NeverDisturbed nopEnv 0x1000 0x1004 false false (fun _ => 0x90)
      (atPrompt (fun _ => 0x90) 0x2000)
      [.enable 0x1000, .enable 0x1004, .disable 0x1004, .disable 0x1000] :=
  (neverDisturbed_iff 0x1000 0x1004 (by decide) _ (by decide) (by simp [Alternates, toggle])
    (by simp [Alternates, toggle]) _ rfl).mpr
    ⟨fun _ => .inr (by simp [Uncrossed, toggle]), fun h => absurd h.1 (by decide)⟩

-- Enable 0x1000, enable 0x1004, disable 0x1000: the int3 at 0x1004 is gone while the
-- breakpoint there is enabled.
theorem disturbed_by_lower_disable :
    let commands := [Command.enable 0x1000, .enable 0x1004, .disable 0x1000]
    (∀ command ∈ commands, command ∈ pairCommands 0x1000 0x1004) ∧
      Alternates 0x1000 false commands ∧ Alternates 0x1004 false commands ∧
      (runCommands nopEnv commands (atPrompt (fun _ => 0x90) 0x2000)).1 = .ok () ∧
      ¬NeverDisturbed nopEnv 0x1000 0x1004 false false (fun _ => 0x90)
        (atPrompt (fun _ => 0x90) 0x2000) commands := by
  refine ⟨by decide, by simp [Alternates, toggle], by simp [Alternates, toggle], rfl, fun h => ?_⟩
  have hbyte := (h _ [] (List.append_nil _).symm _ rfl 0x1004).1 (.inr ⟨rfl, rfl⟩)
  exact absurd hbyte (by decide)

end Pair

end VDebugger
