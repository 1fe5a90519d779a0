import VDebugger.Finish

namespace VDebugger

open Machine

variable {κ : Type}

-- What `step_in` looks up before it touches the debugee: the rows of the line
-- table from the one found for `low_pc` on, and `high_pc`.
def stepInLookup (env : Env κ) : DebuggerM κ (List LineRow × UWORD) := do
  let pc ← getRegValue env .rip
  let s ← Action.fetch
  let offset := pc - s.loadAddress
  let ((res, cuDie), dwarfDbg) := getCuFromAddr offset s.dwarfDbg
  Action.change fun s => { s with dwarfDbg }
  match res, cuDie with
  | .error, _ => Action.fail 1
  | _, none => Action.fail 1
  | _, some cu =>
      match getLineIterator cu with
      | .noEntry | .error => Action.fail 1
      | .ok lineIterator =>
          match getSubProgDieInDieFromAddr offset cu.die none with
          | (.error, _) => Action.fail 1
          | (_, none) => Action.fail 1
          | (_, some subprogDie) =>
              match getLowHighPcFromDie subprogDie with
              | .noEntry | .error => Action.fail 1
              | .ok (lowPc, highPc) =>
                  match searchAddrInLines lineIterator lowPc with
                  | .noEntry | .error => Action.fail 1
                  | .ok lineIndex => pure (lineIterator.dwLines.drop lineIndex, highPc)

-- The loop that sets a breakpoint on every row below `high_pc`.
def stepInInstall (env : Env κ) (highPc : UWORD) : List LineRow → DebuggerM κ Unit
  | [] => pure ()
  | row :: rows =>
      match row.lineaddr with
      | .noEntry | .error => Action.fail 1
      | .ok lineAddr =>
          if lineAddr ≥ highPc then pure ()
          else do
            let s ← Action.fetch
            let lineAddr := lineAddr + s.loadAddress
            let (res, breakpoint) ← getBreakpointAtAddr env lineAddr
            Action.failIf (res ≠ 0 ∧ res ≠ Errors.KEY_NOT_EXISTS.code) res
            if res = 0 ∧ breakpoint.enabled then stepInInstall env highPc rows
            else
              let breakpoint := makeBreakpoint lineAddr
              let breakpoint :=
                if res = Errors.KEY_NOT_EXISTS.code || !breakpoint.enabled then
                  { breakpoint with temporaryEnable := true }
                else breakpoint
              let breakpoint ← enableBreakpoint env breakpoint
              saveBreakpoint breakpoint
              stepInInstall env highPc rows

-- The loop that is to take the temporary breakpoints away again.
def stepInCleanup (env : Env κ) (highPc : UWORD) : List LineRow → DebuggerM κ Unit
  | [] => pure ()
  | row :: rows =>
      match row.lineaddr with
      | .noEntry | .error => Action.fail 1
      | .ok lineAddr =>
          if lineAddr ≥ highPc then pure ()
          else do
            let s ← Action.fetch
            let lineAddr := lineAddr + s.loadAddress
            let (res, breakpoint) ← getBreakpointAtAddr env lineAddr
            Action.failIf (res ≠ 0 ∧ res ≠ Errors.KEY_NOT_EXISTS.code) res
            if res = Errors.KEY_NOT_EXISTS.code || !breakpoint.enabled ||
                !breakpoint.temporaryEnable then
              stepInCleanup env highPc rows
            else
              let _ ← disableBreakpoint env breakpoint
              stepInCleanup env highPc rows

def stepIn (env : Env κ) : DebuggerM κ Unit := do
  let (rows, highPc) ← stepInLookup env
  stepInInstall env highPc rows
  stepOut env
  stepInCleanup env highPc rows

end VDebugger
