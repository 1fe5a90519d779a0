import VDebugger.Next
import VDebugger.Breakpoint.Lemmas

namespace VDebugger

open Machine

variable {κ : Type}

-- The commands that run or change the debugee, with their arguments read:
-- `break enable`, `break disable`, `reg write`, `step`, `continue`, `finish`, `next`.
inductive Command where
  | enable (addr : WORD)
  | disable (addr : WORD)
  | writeRegister (reg : REGISTER) (value : WORD)
  | step (times : WORD)
  | cont
  | finish
  | next
  deriving DecidableEq, Repr

-- `handle_register` on a write, from where register and value are known. The result
-- of `set_reg_value` is not looked at.
def handleRegisterWrite (env : Env κ) (reg : REGISTER) (value : WORD) : DebuggerM κ Unit := do
  let _ ← getRegsStruct env
  let _ ← (setRegValue env reg value).attempt
  pure ()

def handleCommand (env : Env κ) : Command → DebuggerM κ Unit
  | .enable addr => handleBreakpointAt env .ENABLE_BREAKPOINT addr
  | .disable addr => handleBreakpointAt env .DISABLE_BREAKPOINT addr
  | .writeRegister reg value => handleRegisterWrite env reg value
  | .step times => handleStepTimes env times
  | .cont => handleContinue env
  | .finish => stepOut env
  | .next => stepIn env

-- The commands in order, up to the first one that does not succeed.
def runCommands (env : Env κ) : List Command → DebuggerM κ Unit
  | [] => pure ()
  | command :: rest => do
      handleCommand env command
      runCommands env rest

-- The loop of `run_debugger`: it goes on after a command that fails, until the
-- debugee is gone.
def runDebugger (env : Env κ) : List Command → Debugger κ → Debugger κ
  | [], s => s
  | command :: rest, s =>
      match handleCommand env command s with
      | (.ok (), t) => runDebugger env rest t
      | (.error res, t) => if res = Errors.DEBUGEE_EXITED.code then t else runDebugger env rest t
      | (.pending, t) => t

-- A debugee of one-byte no-ops, under a kernel that refuses nothing.
def nopEnv : Env Unit where
  exec p := ({ p with regs := { p.regs with rip := p.regs.rip + 1 } }, none)
  stepCode _ := .TRAP_TRACE
  fault _ := false
  fuel := 16
  undef _ := 0
  unwInitRemote _ := 0
  unwStep _ := 0
  unwGetRegSp _ := (0, 0)

-- The debug information of a unit with one function and the line rows at `rows`.
def oneFunction (lowPc highPc : UWORD) (rows : List UWORD) : DwarfDebug :=
  let attrs tag : DieAttrs := { tag, lowpc := .ok lowPc, highpc := .ok ⟨highPc, true⟩ }
  let die := .mk (attrs .DW_TAG_compile_unit) [.mk (attrs .DW_TAG_subprogram) []]
  ⟨[⟨die, .ok 1, .ok (rows.map fun a => { lineaddr := .ok a })⟩], 0⟩

-- A debugger at its first prompt, with the debugee at `rip`.
def atPrompt (mem : Memory) (rip : UWORD) : Debugger Unit where
  loadAddress := 0
  breakpoints := .empty
  dwarfDbg := ⟨[], 0⟩
  debugee := ⟨mem, { rip }, ()⟩
  resumed := none
  info := .signal .SIGTRAP .TRAP_TRACE
  image := mem
  written _ := false
  log := []
  traps := []

section Runs

variable {env : Env κ} {s t : Debugger κ}

theorem runCommands_cons_ok {command : Command} {rest : List Command} :
    runCommands env (command :: rest) s = (.ok (), t) ↔
      ∃ mid, handleCommand env command s = (.ok (), mid) ∧
        runCommands env rest mid = (.ok (), t) := by
  simp only [runCommands, Action.bind_eq_ok]
  exact ⟨fun ⟨_, mid, h⟩ => ⟨mid, h⟩, fun ⟨mid, h⟩ => ⟨(), mid, h⟩⟩

theorem runCommands_append_ok {first second : List Command} :
    runCommands env (first ++ second) s = (.ok (), t) ↔
      ∃ mid, runCommands env first s = (.ok (), mid) ∧
        runCommands env second mid = (.ok (), t) := by
  induction first generalizing s with
  | nil =>
      constructor
      · intro h
        exact ⟨s, rfl, h⟩
      · rintro ⟨mid, h, hrest⟩
        cases h
        exact hrest
  | cons command first ih =>
      simp only [List.cons_append, runCommands_cons_ok, ih]
      constructor
      · rintro ⟨mid, hc, mid', hf, hs⟩
        exact ⟨mid', ⟨mid, hc, hf⟩, hs⟩
      · rintro ⟨mid', ⟨mid, hc, hf⟩, hs⟩
        exact ⟨mid, hc, mid', hf, hs⟩

theorem handleCommand_enable_ok {a : WORD} (h : handleCommand env (.enable a) s = (.ok (), t)) :
    ∃ log, t = { s.withMem (Function.update s.debugee.mem a.toNat int3) with
      breakpoints := s.breakpoints.set ⟨a, readWord s.debugee.mem a.toNat, true, false⟩
      log } := by
  rcases handleBreakpointAt_enable_cases env s a with ⟨log, hc⟩ | ⟨_, log, hc⟩
  · exact ⟨log, congrArg Prod.snd (h.symm.trans hc)⟩
  · exact nomatch h.symm.trans hc

theorem handleCommand_disable_ok {a : WORD} (h : handleCommand env (.disable a) s = (.ok (), t)) :
    ∃ log, t = { s.withMem (writeWord s.debugee.mem a.toNat (s.breakpoints.lookup a).savedData) with
      breakpoints := s.breakpoints.delete { s.breakpoints.lookup a with enabled := false }
      log } := by
  rcases handleBreakpointAt_disable_cases env s a with ⟨log, hc⟩ | ⟨_, log, hc⟩
  · exact ⟨log, congrArg Prod.snd (h.symm.trans hc)⟩
  · exact nomatch h.symm.trans hc

-- `good before t` holds of the state `t` after every initial part `before` of the
-- run.
def Throughout (env : Env κ) (good : List Command → Debugger κ → Prop)
    (s : Debugger κ) (commands : List Command) : Prop :=
  ∀ before after, commands = before ++ after →
    ∀ t, runCommands env before s = (.ok (), t) → good before t

theorem throughout_nil {good : List Command → Debugger κ → Prop} :
    Throughout env good s [] ↔ good [] s := by
  constructor
  · intro h
    exact h [] [] rfl s rfl
  · intro h before after heq t ht
    obtain ⟨rfl, rfl⟩ := List.append_eq_nil_iff.mp heq.symm
    cases ht
    exact h

theorem throughout_cons {good : List Command → Debugger κ → Prop} {command : Command}
    {rest : List Command} (hc : handleCommand env command s = (.ok (), t)) :
    Throughout env good s (command :: rest) ↔
      good [] s ∧ Throughout env (fun before => good (command :: before)) t rest := by
  constructor
  · intro h
    refine ⟨h [] _ rfl s rfl, fun before after heq u hu => ?_⟩
    exact h (command :: before) after (by rw [heq, List.cons_append]) u
      (runCommands_cons_ok.mpr ⟨t, hc, hu⟩)
  · rintro ⟨hnow, hrest⟩ before after heq u hu
    cases before with
    | nil =>
        cases hu
        exact hnow
    | cons head before =>
        obtain ⟨rfl, rfl⟩ := List.cons.inj heq
        obtain ⟨mid, hmid, hu⟩ := runCommands_cons_ok.mp hu
        rw [hc] at hmid
        cases hmid
        exact hrest before after rfl u hu

end Runs

end VDebugger
