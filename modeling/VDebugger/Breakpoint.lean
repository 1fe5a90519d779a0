import VDebugger.Ptrace

namespace VDebugger

open Machine

variable {κ : Type}

def makeBreakpoint (memAddr : WORD) : Breakpoint :=
  { memAddr, savedData := 0, enabled := false, temporaryEnable := false }

-- The function ends without a `return` when there is something to copy: what its
-- caller then reads as the result is `undef`. `temporary_enable` is copied from
-- `dest` to `dest`.
def copyBreakpoint (undef : Int) (dest : Breakpoint) : Option Breakpoint → Int × Breakpoint
  | none => (1, dest)
  | some src =>
      (undef,
        { dest with
          enabled := src.enabled
          memAddr := src.memAddr
          savedData := src.savedData })

def getBreakpointAtAddr (env : Env κ) (memAddr : WORD) : DebuggerM κ (Int × Breakpoint) := do
  let s ← Action.fetch
  let undef := (env.undef s.log.length).toInt
  let (res, breakpoint) := copyBreakpoint undef (makeBreakpoint memAddr) (s.breakpoints.find memAddr)
  pure (if res ≠ 0 then Errors.KEY_NOT_EXISTS.code else 0, breakpoint)

def saveBreakpoint (breakpoint : Breakpoint) : DebuggerM κ Unit :=
  Action.change fun s => { s with breakpoints := s.breakpoints.set breakpoint }

def deleteBreakpoint (breakpoint : Breakpoint) : DebuggerM κ Unit :=
  Action.change fun s => { s with breakpoints := s.breakpoints.delete breakpoint }

-- Returns the breakpoint as the function leaves it in the caller's struct.
def enableBreakpoint (env : Env κ) (breakpoint : Breakpoint) : DebuggerM κ Breakpoint := do
  let data ← ptracePeekData env breakpoint.memAddr
  let breakpoint := { breakpoint with savedData := data }
  -- `(data & ~0xff) | 0xcc`
  ptracePokeData env .enable breakpoint.memAddr (setLowByte data int3)
  pure { breakpoint with enabled := true }

def disableBreakpoint (env : Env κ) (breakpoint : Breakpoint) : DebuggerM κ Breakpoint := do
  ptracePokeData env .disable breakpoint.memAddr breakpoint.savedData
  pure { breakpoint with enabled := false }

inductive BreakpointAction where
  | ENABLE_BREAKPOINT
  | DISABLE_BREAKPOINT
  deriving DecidableEq, Repr

-- `handle_breakpoint` from where the absolute address `arg` is known.
def handleBreakpointAt (env : Env κ) (action : BreakpointAction) (arg : WORD) :
    DebuggerM κ Unit := do
  let (res, breakpoint) ← getBreakpointAtAddr env arg
  Action.failIf (res ≠ 0 ∧ res ≠ Errors.KEY_NOT_EXISTS.code) res
  match action with
  | .ENABLE_BREAKPOINT =>
      let breakpoint ← (enableBreakpoint env breakpoint).orFail 1
      saveBreakpoint breakpoint
  | .DISABLE_BREAKPOINT =>
      let breakpoint ← (disableBreakpoint env breakpoint).orFail 1
      deleteBreakpoint breakpoint

-- The first half of `step_over_breakpoint`: takes the int3 at the pc away, if the
-- table has an enabled breakpoint there. The struct is a copy of the entry, and
-- the entry itself is not written.
def stepOverLift (env : Env κ) : DebuggerM κ (Option Breakpoint) := do
  let regs ← getRegsStruct env
  let (res, breakpoint) ← getBreakpointAtAddr env (regs.get .rip)
  Action.failIf (res ≠ 0) res
  if !breakpoint.enabled then pure none
  else
    let breakpoint ← disableBreakpoint env breakpoint
    pure (some breakpoint)

def stepInstruction (env : Env κ) : DebuggerM κ Unit := do
  singleStep env
  waitAndHandleSignal env

-- The second half: steps once and puts the int3 back.
def stepOverPutBack (env : Env κ) : Option Breakpoint → DebuggerM κ Unit
  | none => pure ()
  | some breakpoint => do
      stepInstruction env
      let _ ← enableBreakpoint env breakpoint
      pure ()

def stepOverBreakpoint (env : Env κ) : DebuggerM κ Unit := do
  let lifted ← stepOverLift env
  stepOverPutBack env lifted

-- The body of the loop in `handle_step`. The result of `get_reg_value` is not
-- looked at.
def handleStepPass (env : Env κ) : DebuggerM κ Unit := do
  let s ← Action.fetch
  let read ← (getRegValue env .rip).attempt
  let pc := read.getD (env.undef s.log.length)
  let (res, breakpoint) ← getBreakpointAtAddr env pc
  Action.failIf (res ≠ 0) res
  if breakpoint.enabled then stepOverBreakpoint env else stepInstruction env

-- `while (times--)` on the 64-bit count: its value as an unsigned number is the
-- number of passes.
def handleStepLoop (env : Env κ) : Nat → DebuggerM κ Unit
  | 0 => pure ()
  | times + 1 => do
      handleStepPass env
      handleStepLoop env times

-- `handle_step` from where the count is known.
def handleStepTimes (env : Env κ) (times : WORD) : DebuggerM κ Unit :=
  handleStepLoop env times.toNat

-- `handle_command` on CONTINUE
def handleContinue (env : Env κ) : DebuggerM κ Unit := do
  stepOverBreakpoint env
  debugContinue env
  waitAndHandleSignal env

end VDebugger
