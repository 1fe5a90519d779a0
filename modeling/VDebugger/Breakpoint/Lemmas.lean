import VDebugger.Breakpoint
import VDebugger.Ptrace.Lemmas

namespace VDebugger

open Machine

namespace Table

-- The struct `get_breakpoint_at_addr` hands out: the entry without its temporary
-- flag, or a fresh breakpoint.
def lookup (table : Table) (a : WORD) : Breakpoint :=
  match table.find a with
  | none => makeBreakpoint a
  | some bp => { bp with temporaryEnable := false }

theorem lookup_of_find {table : Table} {a : WORD} {bp : Breakpoint} (h : table.find a = some bp) :
    table.lookup a = { bp with temporaryEnable := false } := by
  simp only [lookup, h]

@[simp] theorem lookup_memAddr (table : Table) (a : WORD) : (table.lookup a).memAddr = a := by
  unfold lookup
  split
  · rfl
  · next bp h => exact table.keyed a bp h

@[simp] theorem lookup_temporaryEnable (table : Table) (a : WORD) :
    (table.lookup a).temporaryEnable = false := by
  unfold lookup
  split <;> rfl

theorem lookup_enabled_iff (table : Table) (a : WORD) :
    (table.lookup a).enabled = true ↔ table.enabledAt a := by
  unfold lookup enabledAt
  cases h : table.find a <;> simp [makeBreakpoint]

theorem lookup_set_self (table : Table) (bp : Breakpoint) :
    (table.set bp).lookup bp.memAddr = { bp with temporaryEnable := false } :=
  lookup_of_find (find_set_self table bp)

theorem lookup_set_of_ne (table : Table) (bp : Breakpoint) {a : WORD} (h : a ≠ bp.memAddr) :
    (table.set bp).lookup a = table.lookup a := by
  simp only [lookup, find_set_of_ne table bp h]

theorem lookup_delete_of_ne (table : Table) (bp : Breakpoint) {a : WORD} (h : a ≠ bp.memAddr) :
    (table.delete bp).lookup a = table.lookup a := by
  simp only [lookup, find_delete_of_ne table bp h]

end Table

variable {κ : Type} (env : Env κ) (s : Debugger κ)

-- `copy_breakpoint` fails only where the result is KEY_NOT_EXISTS, which is 0: the
-- result never tells a missing entry from a present one.
theorem getBreakpointAtAddr_eq (a : WORD) :
    getBreakpointAtAddr env a s = (.ok (0, s.breakpoints.lookup a), s) := by
  have hcode : Errors.KEY_NOT_EXISTS.code = 0 := rfl
  simp only [getBreakpointAtAddr, Action.bind_apply, Action.fetch_apply, Action.pure_apply,
    hcode, ite_self]
  cases h : s.breakpoints.find a with
  | none => simp only [copyBreakpoint, Table.lookup, h]
  | some bp => simp only [copyBreakpoint, Table.lookup, h, makeBreakpoint]

-- So the check of the result that follows at the call sites lets everything pass.
theorem getBreakpointAtAddr_then {α : Type} (a : WORD) (f : Int × Breakpoint → DebuggerM κ α) :
    (do
      let found ← getBreakpointAtAddr env a
      Action.failIf (found.1 ≠ 0 ∧ found.1 ≠ Errors.KEY_NOT_EXISTS.code) found.1
      f found : DebuggerM κ α) s = f (0, s.breakpoints.lookup a) s := by
  rw [Action.bind_of_ok (getBreakpointAtAddr_eq env s a)]
  exact Action.bind_of_ok (Action.failIf_of_not (fun h => h.1 rfl) _ _) _

theorem enableBreakpoint_cases (bp : Breakpoint) :
    (∃ log, enableBreakpoint env bp s =
        (.ok { bp with
            savedData := readWord s.debugee.mem bp.memAddr.toNat
            enabled := true },
          { s.withMem (Function.update s.debugee.mem bp.memAddr.toNat int3) with log })) ∨
      (∃ n, env.fault n = true) ∧
        ∃ log, enableBreakpoint env bp s = (.error Errors.PTRACE_ERROR.code, { s with log }) := by
  rcases ptracePeekData_cases env s bp.memAddr with ⟨log, h⟩ | ⟨hf, log, h⟩
  · have hb := fun f => Action.bind_of_ok (β := Breakpoint) h f
    rcases ptracePokeData_cases env { s with log } .enable bp.memAddr
      (setLowByte (readWord s.debugee.mem bp.memAddr.toNat) int3) with ⟨log', h'⟩ | ⟨hf, log', h'⟩
    · refine .inl ⟨log', ?_⟩
      rw [← writeWord_setLowByte]
      exact (hb _).trans (Action.bind_of_ok h' _)
    · exact .inr ⟨hf, log', (hb _).trans (Action.bind_of_error h' _)⟩
  · exact .inr ⟨hf, log, Action.bind_of_error h _⟩

theorem enableBreakpoint_ok_enabled {env : Env κ} {s t : Debugger κ} {bp enabled : Breakpoint}
    (h : enableBreakpoint env bp s = (.ok enabled, t)) : enabled.enabled = true := by
  rcases enableBreakpoint_cases env s bp with ⟨log, hc⟩ | ⟨_, log, hc⟩
  · rw [hc] at h
    cases h
    rfl
  · exact nomatch h.symm.trans hc

theorem disableBreakpoint_cases (bp : Breakpoint) :
    (∃ log, disableBreakpoint env bp s =
        (.ok { bp with enabled := false },
          { s.withMem (writeWord s.debugee.mem bp.memAddr.toNat bp.savedData) with log })) ∨
      (∃ n, env.fault n = true) ∧
        ∃ log, disableBreakpoint env bp s = (.error Errors.PTRACE_ERROR.code, { s with log }) := by
  rcases ptracePokeData_cases env s .disable bp.memAddr bp.savedData with ⟨log, h⟩ | ⟨hf, log, h⟩
  · exact .inl ⟨log, Action.bind_of_ok h _⟩
  · exact .inr ⟨hf, log, Action.bind_of_error h _⟩

-- Which of the two it is: the poke is one request.
theorem disableBreakpoint_granted {env : Env κ} {s : Debugger κ} (bp : Breakpoint)
    (h : env.fault s.log.length = false) :
    disableBreakpoint env bp s =
      (.ok { bp with enabled := false },
        (s.note (.pokeData .disable bp.memAddr bp.savedData) true).withMem
          (writeWord s.debugee.mem bp.memAddr.toNat bp.savedData)) :=
  Action.bind_of_ok (ptracePokeData_of_granted h _ _ _) _

theorem disableBreakpoint_refused {env : Env κ} {s : Debugger κ} (bp : Breakpoint)
    (h : env.fault s.log.length = true) :
    ∃ log, disableBreakpoint env bp s = (.error Errors.PTRACE_ERROR.code, { s with log }) :=
  ⟨_, Action.bind_of_error (ptracePokeData_of_refused h _ _ _) _⟩

theorem handleBreakpointAt_enable_eq (a : WORD) :
    handleBreakpointAt env .ENABLE_BREAKPOINT a s =
      (do
        let breakpoint ← (enableBreakpoint env (s.breakpoints.lookup a)).orFail 1
        saveBreakpoint breakpoint : DebuggerM κ Unit) s :=
  getBreakpointAtAddr_then env s a _

theorem handleBreakpointAt_disable_eq (a : WORD) :
    handleBreakpointAt env .DISABLE_BREAKPOINT a s =
      (do
        let breakpoint ← (disableBreakpoint env (s.breakpoints.lookup a)).orFail 1
        deleteBreakpoint breakpoint : DebuggerM κ Unit) s :=
  getBreakpointAtAddr_then env s a _

-- `break enable` marks one byte and files the word it found there.
theorem handleBreakpointAt_enable_cases (a : WORD) :
    (∃ log, handleBreakpointAt env .ENABLE_BREAKPOINT a s =
        (.ok (), { s.withMem (Function.update s.debugee.mem a.toNat int3) with
          breakpoints := s.breakpoints.set ⟨a, readWord s.debugee.mem a.toNat, true, false⟩
          log })) ∨
      (∃ n, env.fault n = true) ∧
        ∃ log, handleBreakpointAt env .ENABLE_BREAKPOINT a s = (.error 1, { s with log }) := by
  rw [handleBreakpointAt_enable_eq]
  rcases enableBreakpoint_cases env s (s.breakpoints.lookup a) with ⟨log, h⟩ | ⟨hf, log, h⟩
  · refine .inl ⟨log, ?_⟩
    rw [Action.bind_of_ok (Action.orFail_eq_ok.mpr h)]
    simp only [saveBreakpoint, Action.change_apply, Table.lookup_memAddr,
      Table.lookup_temporaryEnable]
    rfl
  · exact .inr ⟨hf, log, Action.bind_of_error (Action.orFail_of_error h 1) _⟩

-- `break disable` writes the filed word back and drops the entry.
theorem handleBreakpointAt_disable_cases (a : WORD) :
    (∃ log, handleBreakpointAt env .DISABLE_BREAKPOINT a s =
        (.ok (), { s.withMem (writeWord s.debugee.mem a.toNat (s.breakpoints.lookup a).savedData) with
          breakpoints := s.breakpoints.delete { s.breakpoints.lookup a with enabled := false }
          log })) ∨
      (∃ n, env.fault n = true) ∧
        ∃ log, handleBreakpointAt env .DISABLE_BREAKPOINT a s = (.error 1, { s with log }) := by
  rw [handleBreakpointAt_disable_eq]
  rcases disableBreakpoint_cases env s (s.breakpoints.lookup a) with ⟨log, h⟩ | ⟨hf, log, h⟩
  · refine .inl ⟨log, ?_⟩
    rw [Action.bind_of_ok (Action.orFail_eq_ok.mpr h)]
    simp only [deleteBreakpoint, Action.change_apply, Table.lookup_memAddr]
    rfl
  · exact .inr ⟨hf, log, Action.bind_of_error (Action.orFail_of_error h 1) _⟩

theorem stepOverLift_eq {log : List (Request × Bool)}
    (h : getRegsStruct env s = (.ok s.debugee.regs, { s with log })) :
    stepOverLift env s =
      (if !(s.breakpoints.lookup s.debugee.regs.rip).enabled then pure none
        else do
          let breakpoint ← disableBreakpoint env (s.breakpoints.lookup s.debugee.regs.rip)
          pure (some breakpoint) : DebuggerM κ (Option Breakpoint)) { s with log } :=
  (Action.bind_of_ok h _).trans
    ((Action.bind_of_ok (getBreakpointAtAddr_eq env { s with log } s.debugee.regs.rip) _).trans
      (Action.bind_of_ok (Action.failIf_of_not (by decide) _ _) _))

-- At the pc: nothing to lift, the int3 lifted, or a request refused.
theorem stepOverLift_cases :
    (¬s.breakpoints.enabledAt s.debugee.regs.rip ∧
        ∃ log, stepOverLift env s = (.ok none, { s with log })) ∨
      (s.breakpoints.enabledAt s.debugee.regs.rip ∧
        ∃ log, stepOverLift env s =
          (.ok (some { s.breakpoints.lookup s.debugee.regs.rip with enabled := false }),
            { s.withMem (writeWord s.debugee.mem s.debugee.pc
                (s.breakpoints.lookup s.debugee.regs.rip).savedData) with log })) ∨
      (∃ n, env.fault n = true) ∧
        ∃ log, stepOverLift env s = (.error Errors.PTRACE_ERROR.code, { s with log }) := by
  rcases getRegsStruct_cases env s with ⟨log, h⟩ | ⟨hf, log, h⟩
  · have hstart := stepOverLift_eq env s h
    by_cases he : s.breakpoints.enabledAt s.debugee.regs.rip
    · have hl := (Table.lookup_enabled_iff _ _).mpr he
      rw [hl, Bool.not_true, if_neg (by decide)] at hstart
      rcases disableBreakpoint_cases env { s with log }
        (s.breakpoints.lookup s.debugee.regs.rip) with ⟨log', h'⟩ | ⟨hf, log', h'⟩
      · refine .inr (.inl ⟨he, log', ?_⟩)
        rw [hstart, Action.bind_of_ok h']
        simp only [Table.lookup_memAddr]
        rfl
      · exact .inr (.inr ⟨hf, log', hstart.trans (Action.bind_of_error h' _)⟩)
    · have hl : (s.breakpoints.lookup s.debugee.regs.rip).enabled = false := by
        simpa [← Table.lookup_enabled_iff] using he
      rw [hl, Bool.not_false, if_pos rfl] at hstart
      exact .inl ⟨he, log, hstart⟩
  · exact .inr (.inr ⟨hf, log, Action.bind_of_error h _⟩)

-- One pass of the loop of `handle_step`, from what was read for the pc.
theorem handleStepPass_of_read {env : Env κ} {s t : Debugger κ} {read : Option UWORD}
    (h : (getRegValue env .rip).attempt s = (.ok read, t)) :
    handleStepPass env s =
      (if (t.breakpoints.lookup (read.getD (env.undef s.log.length))).enabled
        then stepOverBreakpoint env else stepInstruction env) t :=
  (Action.bind_of_ok h _).trans
    ((Action.bind_of_ok (getBreakpointAtAddr_eq env t _) _).trans
      (Action.bind_of_ok (Action.failIf_of_not (by decide) _ _) _))

theorem attempt_rip_of_ok {env : Env κ} {s t : Debugger κ} {regs : RegsStruct}
    (h : getRegsStruct env s = (.ok regs, t)) :
    (getRegValue env .rip).attempt s = (.ok (some regs.rip), t) := by
  simp only [Action.attempt, getRegValue, Action.bind_of_ok h]
  rfl

theorem attempt_rip_of_error {env : Env κ} {s t : Debugger κ} {code : Int}
    (h : getRegsStruct env s = (.error code, t)) :
    (getRegValue env .rip).attempt s = (.ok none, t) := by
  simp only [Action.attempt, getRegValue, Action.bind_of_error h]

theorem handleStepPass_eq :
    ∃ read log, (read = s.debugee.regs.rip ∨ ∃ n, env.fault n = true) ∧
      handleStepPass env s =
        (if (s.breakpoints.lookup read).enabled then stepOverBreakpoint env
          else stepInstruction env) { s with log } := by
  rcases getRegsStruct_cases env s with ⟨log, h⟩ | ⟨hf, log, h⟩
  · exact ⟨s.debugee.regs.rip, log, .inl rfl, handleStepPass_of_read (attempt_rip_of_ok h)⟩
  · exact ⟨env.undef s.log.length, log, .inr hf, handleStepPass_of_read (attempt_rip_of_error h)⟩

-- A step over one instruction that nothing stops.
theorem stepInstruction_granted (hfault : ∀ n, env.fault n = false)
    (hcode : ∀ p, env.stepCode p = .TRAP_TRACE) {q : Proc κ}
    (h : cpuStep env s.debugee = (q, none)) :
    ∃ t, stepInstruction env s = (.ok (), t) ∧ t.debugee = q ∧ t.breakpoints = s.breakpoints := by
  have hstep := singleStep_of_granted (hfault s.log.length)
  have hawait : awaitStop env
      (Debugger.note { s.note .singleStep true with resumed := some .step } .waitpid true) =
        (.ok (), Debugger.settle
          (Debugger.note { s.note .singleStep true with resumed := some .step } .waitpid true) q
          (.signal .SIGTRAP .TRAP_TRACE)) := by
    simp only [awaitStop, Debugger.note, h, hcode, Option.getD_none]
  obtain ⟨log, traps, hwait⟩ := waitAndHandleSignal_granted hfault hawait rfl
  exact ⟨_, (Action.bind_of_ok hstep _).trans hwait, rfl, rfl⟩

-- A step over the breakpoint at the pc: the instruction runs on the memory with the
-- saved word in it.
theorem stepOverBreakpoint_granted (hfault : ∀ n, env.fault n = false)
    (hcode : ∀ p, env.stepCode p = .TRAP_TRACE)
    (hon : s.breakpoints.enabledAt s.debugee.regs.rip) {q : Proc κ}
    (h : cpuStep env { s.debugee with
      mem := writeWord s.debugee.mem s.debugee.pc
        (s.breakpoints.lookup s.debugee.regs.rip).savedData } = (q, none)) :
    ∃ t, stepOverBreakpoint env s = (.ok (), t) ∧
      t.debugee = { q with mem := Function.update q.mem s.debugee.pc int3 } ∧
      t.breakpoints = s.breakpoints := by
  have hnone : ¬∃ n, env.fault n = true := by
    rintro ⟨n, hn⟩
    simp [hfault n] at hn
  rcases stepOverLift_cases env s with ⟨hoff, _⟩ | ⟨_, log, hlift⟩ | ⟨hf, _⟩
  · exact absurd hon hoff
  · obtain ⟨t, hstep, rfl, htable⟩ := stepInstruction_granted env
      { s.withMem (writeWord s.debugee.mem s.debugee.pc
        (s.breakpoints.lookup s.debugee.regs.rip).savedData) with log } hfault hcode h
    rcases enableBreakpoint_cases env t
      { s.breakpoints.lookup s.debugee.regs.rip with enabled := false } with
      ⟨log', henable⟩ | ⟨hf, _⟩
    · refine ⟨_, (Action.bind_of_ok hlift _).trans
        ((Action.bind_of_ok hstep _).trans (Action.bind_of_ok henable _)), ?_, htable⟩
      simp only [Table.lookup_memAddr]
      rfl
    · exact absurd hf hnone
  · exact absurd hf hnone

end VDebugger
