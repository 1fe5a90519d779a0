import VDebugger.Command.Granted
import VDebugger.Handlers.Tokens

namespace VDebugger

open Machine HandlerM

variable {κ α : Type} {env : Env κ} {s : Debugger κ}

section Numerals

-- Whether a numeral has a minus, and what stands behind its sign.
def signOf (arg : CString) : Bool × CString :=
  match arg.dropWhile isSpace with
  | '-' :: rest => (true, rest)
  | '+' :: rest => (false, rest)
  | rest => (false, rest)

-- The integer that a decimal numeral stands for, however large.
def numeralValue (arg : CString) : Option Int :=
  match parseDigits 10 (signOf arg).2 with
  | some (n, []) => some (if (signOf arg).1 then -n else n)
  | _ => none

theorem parseNumber_eq (base : Nat) (arg : CString) :
    parseNumber base arg = match parseDigits base (signOf arg).2 with
      | none => (0, arg)
      | some (n, rest) =>
          (max (-2 ^ 63) (min (if (signOf arg).1 then -n else n) (2 ^ 63 - 1)), rest) := by
  unfold parseNumber
  split
  · next rest hspace =>
      have hsign : signOf arg = (true, rest) := by simp only [signOf, hspace]
      rw [hsign]
      rfl
  · next rest hspace =>
      have hsign : signOf arg = (false, rest) := by simp only [signOf, hspace]
      rw [hsign]
      rfl
  · next hminus hplus =>
      have hsign : signOf arg = (false, arg.dropWhile isSpace) := by
        unfold signOf
        split
        · next rest hspace => exact absurd hspace (hminus rest)
        · next rest hspace => exact absurd hspace (hplus rest)
        · rfl
      rw [hsign]
      rfl

-- `strtoll` reads a numeral to its end, and gives the nearest number that it has.
theorem parseNumber_of_numeral {arg : CString} {n : Int} (h : numeralValue arg = some n) :
    parseNumber 10 arg = (max (-2 ^ 63) (min n (2 ^ 63 - 1)), []) := by
  rw [parseNumber_eq]
  unfold numeralValue at h
  split at h
  · next k hdigits =>
      cases h
      rw [hdigits]
  · cases h

end Numerals

theorem handleStep_run (env : Env κ) (s : Debugger κ) {arg : CString} (more : List CString)
    {n : Int} (h : parseNumber 10 arg = (n, [])) :
    (handleStep env (arg :: more)).run s =
      (call (handleStepTimes env (BitVec.ofInt 64 n))).run s := by
  have hread : (strtoll 10 (some arg) : HandlerM κ (WORD × CString)).run s =
      (.ok (some (BitVec.ofInt 64 n, [])), s) := by
    have hrun : (strtoll 10 (some arg) : HandlerM κ (WORD × CString)).run s =
        (.ok (some (BitVec.ofInt 64 (parseNumber 10 arg).1, (parseNumber 10 arg).2)), s) := rfl
    rw [hrun, h]
  rw [handleStep]
  refine (run_rejectIf_of_not (fun h => nomatch h) 1 _ s).trans ?_
  rw [run_bind_apply]
  have hread' : (strtoll 10 (arg :: more)[0]? : HandlerM κ (WORD × CString)).run s = _ := hread
  rw [hread']
  exact run_rejectIf_of_not (fun h => h rfl) 1 _ s

-- `step` with a numeral makes as many single steps as it says and returns 0, or rejects a
-- negative one.
def StepsAsAsked (env : Env κ) (tokens : List CString) (n : Int) (s : Debugger κ) : Prop :=
  if 0 ≤ n then
    ∃ t, (handleStep env tokens).run s = (.ok (some ()), t) ∧
      (t.singleSteps : Int) = s.singleSteps + n
  else
    ∃ code t, code ≠ 0 ∧ (handleStep env tokens).run s = (.error code, t) ∧
      t.singleSteps = s.singleSteps

theorem run_call_state (y : DebuggerM κ α) (s : Debugger κ) : ((call y).run s).2 = (y s).2 := by
  rw [run_call]
  rcases y s with ⟨_ | _ | _, t⟩ <;> rfl

theorem steps_as_asked_iff {arg : CString} {more : List CString} {n : Int}
    (hnumeral : numeralValue arg = some n)
    (hgranted : Granted env s ((handleStep env (arg :: more)).run s).2)
    (hstops : StopsBySigtrap env (BitVec.ofInt 64 (parseNumber 10 arg).1).toNat s) :
    StepsAsAsked env (arg :: more) n s ↔ 0 ≤ n ∧ n < 2 ^ 63 := by
  have hparse := parseNumber_of_numeral hnumeral
  have hstart := handleStep_run env s more hparse
  rw [hparse] at hstops
  rw [hstart, run_call_state] at hgranted
  obtain ⟨t, hrun, hsteps⟩ := handleStepLoop_steps hgranted hstops
  have hdone : (handleStep env (arg :: more)).run s = (.ok (some ()), t) := by
    rw [hstart, run_call, handleStepTimes, hrun]
  rw [BitVec.toNat_ofInt] at hsteps
  unfold StepsAsAsked
  rw [hdone]
  by_cases hsign : 0 ≤ n
  · rw [if_pos hsign]
    constructor
    · rintro ⟨u, hsame, hcount⟩
      cases hsame
      omega
    · rintro ⟨-, hbound⟩
      exact ⟨t, rfl, by omega⟩
  · rw [if_neg hsign]
    constructor
    · rintro ⟨code, u, -, hfailed, -⟩
      exact nomatch hfailed
    · rintro ⟨hzero, -⟩
      exact absurd hzero hsign

section Examples

theorem step_three :
    StepsAsAsked nopEnv ["3".toList] 3 (atPrompt (fun _ => 0x90) 0x2000) :=
  (steps_as_asked_iff (by decide) (nopEnv_obliging.granted _ _)
    (nopEnv_obliging.stopsBySigtrap _ _)).mpr (by decide)

-- `step -1` steps 2 ^ 64 - 1 times.
theorem step_minus_one :
    let s := atPrompt (fun _ => 0x90) 0x2000
    let tokens := ["-1".toList]
    numeralValue "-1".toList = some (-1) ∧
      Granted nopEnv s ((handleStep nopEnv tokens).run s).2 ∧
      StopsBySigtrap nopEnv (2 ^ 64 - 1) s ∧ ¬StepsAsAsked nopEnv tokens (-1) s ∧
      ∃ t, (handleStep nopEnv tokens).run s = (.ok (some ()), t) ∧
        t.singleSteps = 2 ^ 64 - 1 := by
  intro s tokens
  have hloop : ∃ t, handleStepLoop nopEnv (2 ^ 64 - 1) s = (.ok (), t) ∧
      t.singleSteps = s.singleSteps + (2 ^ 64 - 1) :=
    handleStepLoop_steps (nopEnv_obliging.granted _ _) (nopEnv_obliging.stopsBySigtrap _ _)
  obtain ⟨t, hrun, hsteps⟩ := hloop
  have hparse : parseNumber 10 "-1".toList = (-1, []) := by decide
  have hdone : (handleStep nopEnv tokens).run s = (.ok (some ()), t) := by
    rw [handleStep_run _ _ _ hparse, run_call, handleStepTimes]
    have htimes : (BitVec.ofInt 64 (-1)).toNat = 2 ^ 64 - 1 := by decide
    rw [htimes, hrun]
  refine ⟨by decide, nopEnv_obliging.granted _ _, nopEnv_obliging.stopsBySigtrap _ _, ?_,
    t, hdone, hsteps.trans (Nat.zero_add _)⟩
  rintro ⟨code, u, -, hfailed, -⟩
  exact nomatch hdone.symm.trans hfailed

end Examples

end VDebugger
