import VDebugger.Handlers.Inspect
import VDebugger.Repl.RoundTrip

namespace VDebugger

open Machine HandlerM Printing

variable {κ γ : Type} {env : Env κ} {var : VarEnv κ} {types : TypeEnv} {s t : Debugger κ}
  {backtraceCall : DebuggerM κ Unit}

section Log

variable {log earlier later : List (Request × Bool)} {req : Request} {granted : Bool}

-- The debugee has been resumed and not been waited for.
def Resumes (event : Request × Bool) : Prop := event = (.singleStep, true) ∨ event = (.cont, true)

-- Each `waitpid` comes right behind a request that has resumed the debugee, and nothing else
-- does. Each PTRACE_GETSIGINFO comes right behind a `waitpid` that has returned, and nothing
-- else does.
def TakesTurns (log : List (Request × Bool)) : Prop :=
  ∀ later req granted earlier, log = later ++ (req, granted) :: earlier →
    (req = .waitpid ↔ ∃ last ∈ earlier.head?, Resumes last) ∧
      (req = .getSiginfo ↔ earlier.head? = some (.waitpid, true))

theorem phase_head {phase : Phase} (h : phaseAfter Phase.next .stopped log = some phase) :
    (phase = .running ↔ ∃ last ∈ log.head?, Resumes last) ∧
      (phase = .reported ↔ log.head? = some (.waitpid, true)) := by
  cases log with
  | nil =>
      cases h
      simp
  | cons event log =>
      rw [phaseAfter] at h
      obtain ⟨before, -, hnext⟩ := Option.bind_eq_some_iff.mp h
      obtain ⟨req, granted⟩ := event
      cases before <;> cases req <;> cases granted <;> cases hnext <;> simp [Resumes]

theorem takesTurns_of_inOrder (h : (phaseAfter Phase.next .stopped log).isSome) :
    TakesTurns log := by
  rintro later req granted earlier rfl
  obtain ⟨phase, hphase, hnext⟩ := phaseAfter_split h
  obtain ⟨hrunning, hreported⟩ := phase_head hphase
  rw [← hrunning, ← hreported]
  cases phase <;> cases req <;> cases granted <;> cases hnext <;> simp

end Log

section Sessions

-- At the prompt, or behind the last command.
theorem promptHandler_orderly (h : OnlyLooks Inspects var backtraceCall) (cmnd : COMMAND)
    (tokens : List CString) (hs : AtRest s) :
    let run := promptHandler env var backtraceCall s cmnd tokens
    InOrder run.2 ∧ (run.1 ≠ Errors.DEBUGEE_EXITED.code → AtRest run.2) := by
  intro run
  have hrun : run = promptHandler env var backtraceCall s cmnd tokens := rfl
  have hstate : run.2 = ((handleTokens env var backtraceCall cmnd tokens).run s).2 :=
    promptHandler_state cmnd tokens
  rcases handleTokens_dispatches (inspects_kept env) h cmnd tokens s with
    hlook | ⟨mid, command, hmid, heq⟩
  · rw [← hstate] at hlook
    exact ⟨(hlook.atRest hs).inOrder, fun _ => hlook.atRest hs⟩
  · have hend : Action.Ends _ _ _ (handleCommand env command mid) :=
      handleCommand_orderly command mid (hmid.atRest hs)
    rw [heq, run_call] at hstate
    unfold promptHandler at hrun
    rw [heq, run_call] at hrun
    rcases hcommand : handleCommand env command mid with ⟨_ | code | _, t⟩ <;>
      rw [hcommand] at hend hstate hrun <;> rw [hstate]
    · exact ⟨AtRest.inOrder hend, fun _ => hend⟩
    · by_cases hcode : code = Errors.DEBUGEE_EXITED.code
      · have hend : AfterError code t := hend
        unfold AfterError at hend
        rw [if_pos hcode] at hend
        rw [hrun]
        exact ⟨hend, fun hne => absurd hcode hne⟩
      · have hend : AfterError code t := hend
        unfold AfterError at hend
        rw [if_neg hcode] at hend
        exact ⟨hend.inOrder, fun _ => hend⟩
    · rw [hrun]
      exact ⟨hend, fun hne => absurd rfl hne⟩

theorem promptHandler_keeps (env : Env κ) (h : OnlyLooks Inspects var backtraceCall) :
    (promptHandler env var backtraceCall).Keeps AtRest InOrder where
  leave _ hs := hs.inOrder
  handled _ cmnd tokens hs := (promptHandler_orderly h cmnd tokens hs).1
  again _ cmnd tokens hs := (promptHandler_orderly h cmnd tokens hs).2

-- Whatever is typed, and whatever the kernel refuses, the requests of a session come in turns.
theorem session_takesTurns (env : Env κ) (var : VarEnv κ) (types : TypeEnv) (unw : Unwinder κ γ)
    (fuel : Nat) (buffer : Buffer) (prompt : Session (Debugger κ)) (lines : List CString)
    (hlog : prompt.dbg.log = []) (hresumed : prompt.dbg.resumed = none) :
    TakesTurns (pollLoop (promptHandler env (var.withParams env types)
      (VDebugger.backtrace env unw fuel).silent) buffer prompt lines).dbg.log := by
  have hstart : prompt.dbg.phase = some .stopped := by
    unfold Debugger.phase
    rw [hlog]
    rfl
  exact takesTurns_of_inOrder (pollLoop_keeps
    (promptHandler_keeps env (onlyLooks_withParams env var types unw fuel)) buffer lines
    (.inl ⟨hstart, hresumed⟩))

theorem step_takesTurns :
    let log := (pollLoop (promptHandler nopEnv (implicitVarEnv.withParams nopEnv (unsignedTypes 8))
      (VDebugger.backtrace nopEnv threeFrames 8).silent) (newBuffer (fun _ => 'x') 16)
      ⟨atPrompt (fun _ => 0x90) 0x2000, []⟩ ["step 1;".toList]).dbg.log
    log = [(.getSiginfo, true), (.waitpid, true), (.singleStep, true), (.getRegs, true)] ∧
      TakesTurns log := by
  refine ⟨?_, session_takesTurns nopEnv implicitVarEnv (unsignedTypes 8) threeFrames 8 _ _ _ rfl
    rfl⟩
  rw [pollLoop_eq_feed]
  decide +kernel

end Sessions

end VDebugger
