import VDebugger.Breakpoint

namespace VDebugger

open Machine

variable {κ : Type}

-- The CFA of the current frame as libunwind gives it: `ok none` where there is no
-- caller frame.
def unwindFrameBase (env : Env κ) : DebuggerM κ (Option UWORD) := do
  let s ← Action.fetch
  Action.failIf (env.unwInitRemote s.debugee < 0) 1
  let res := env.unwStep s.debugee
  Action.failIf (res < 0) 1
  if res = 0 then pure none
  else
    let (res, frameBase) := env.unwGetRegSp s.debugee
    Action.failIf (res ≠ 0) 1
    pure (some frameBase)

-- The breakpoint at the return address, and whether it was put there by this call.
def stepOutArm (env : Env κ) (frameBase : UWORD) : DebuggerM κ (Breakpoint × Bool) := do
  let returnAddr ← ptracePeekData env (frameBase - 8)
  let (res, breakpoint) ← getBreakpointAtAddr env returnAddr
  Action.failIf (res ≠ 0 ∧ res ≠ Errors.KEY_NOT_EXISTS.code) res
  let temp := res = Errors.KEY_NOT_EXISTS.code || !breakpoint.enabled
  let breakpoint ← enableBreakpoint env breakpoint
  pure (breakpoint, temp)

def stepOutRun (env : Env κ) : DebuggerM κ Unit := do
  stepOverBreakpoint env
  debugContinue env
  waitAndHandleSignal env

def stepOutRestore (env : Env κ) (breakpoint : Breakpoint) (temp : Bool) : DebuggerM κ Unit := do
  if temp then
    let _ ← disableBreakpoint env breakpoint
    pure ()

def stepOut (env : Env κ) : DebuggerM κ Unit := do
  match ← unwindFrameBase env with
  | none => pure ()
  | some frameBase =>
      let (breakpoint, temp) ← stepOutArm env frameBase
      stepOutRun env
      stepOutRestore env breakpoint temp

end VDebugger
