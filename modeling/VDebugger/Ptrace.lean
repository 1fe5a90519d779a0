import VDebugger.Machine.Action
import VDebugger.Machine.Runs
import VDebugger.DwarfInfo
import VDebugger.Table

namespace VDebugger

open Machine

inductive Errors where
  | KEY_NOT_EXISTS
  | INVALID_COMMAND
  | WAIT_PID_ERROR
  | DEBUGEE_EXITED
  | PTRACE_ERROR
  deriving DecidableEq, Repr

-- The first enumerator is 0, the value every caller also takes for success.
def Errors.code : Errors → Int
  | .KEY_NOT_EXISTS => 0
  | .INVALID_COMMAND => 1
  | .WAIT_PID_ERROR => 2
  | .DEBUGEE_EXITED => 3
  | .PTRACE_ERROR => 4

inductive SiCode where
  | SI_KERNEL
  | TRAP_BRKPT
  | TRAP_TRACE
  | other (code : Int)
  deriving DecidableEq, Repr

inductive Signal where
  | SIGTRAP
  | other (signo : Nat)
  deriving DecidableEq, Repr

-- What `waitpid` and PTRACE_GETSIGINFO say about a debugee that no longer runs.
inductive Stop where
  | signal (si_signo : Signal) (si_code : SiCode)
  | exited
  deriving DecidableEq, Repr

-- The debugee: its memory, its registers, and everything else that its run
-- depends on.
structure Proc (κ : Type) where
  mem : Memory
  regs : RegsStruct
  ext : κ

inductive Resume where
  | step
  | cont
  deriving DecidableEq, Repr

-- The two call sites of PTRACE_POKEDATA.
inductive PokeSite where
  | enable
  | disable
  deriving DecidableEq, Repr

inductive Request where
  | waitpid
  | getSiginfo
  | getRegs
  | setRegs
  | peekData (addr : UWORD)
  | pokeData (site : PokeSite) (addr data : UWORD)
  | singleStep
  | cont
  deriving DecidableEq, Repr

-- The address at which a request sets an int3.
def Request.inserts : Request → Option UWORD
  | .pokeData .enable addr _ => some addr
  | _ => none

-- One call of `handle_sigtrap`: the pc it finds and the pc it leaves, whether the
-- debugger had an int3 of its own right before the pc, and whether the kernel
-- grants the two register requests.
structure Trap where
  siCode : SiCode
  pc : UWORD
  own : Bool
  granted : Bool
  after : UWORD
  deriving DecidableEq, Repr

structure Debugger (κ : Type) where
  loadAddress : WORD
  breakpoints : Table
  dwarfDbg : DwarfDebug
  debugee : Proc κ
  -- Set between PTRACE_SINGLESTEP or PTRACE_CONT and the `waitpid` that follows.
  resumed : Option Resume
  -- What the last `waitpid` reported.
  info : Stop
  -- The debugee's memory without what the debugger has written into it. No
  -- modelled function reads this field or the next three.
  image : Memory
  -- Where a run of the debugee has left another byte than it found.
  written : Nat → Bool
  -- The requests made so far, the latest first, and whether they were granted.
  log : List (Request × Bool)
  -- The calls of `handle_sigtrap` so far, the latest first.
  traps : List Trap

-- What the debugger cannot see the inside of.
structure Env (κ : Type) where
  -- One instruction other than int3, and what stops the debugee during it.
  exec : Proc κ → Proc κ × Option Stop
  -- The `si_code` of a single step over the instruction at the pc.
  stepCode : Proc κ → SiCode
  -- Whether the kernel refuses the n-th request.
  fault : Nat → Bool
  -- How many instructions of a continued debugee are observed.
  fuel : Nat
  -- What is read from an object that was never written, after n requests.
  undef : Nat → UWORD
  -- `unw_init_remote`, `unw_step`, and `unw_get_reg` of UNW_REG_SP after one step.
  unwInitRemote : Proc κ → Int
  unwStep : Proc κ → Int
  unwGetRegSp : Proc κ → Int × UWORD

variable {κ : Type}

def Proc.pc (p : Proc κ) : Nat := p.regs.rip.toNat

def int3 : Byte := 0xcc

def Proc.pastInt3 (p : Proc κ) : Proc κ :=
  { p with regs := { p.regs with rip := p.regs.rip + 1 } }

-- An int3 traps with the pc one past it and does nothing else.
def cpuStep (env : Env κ) (p : Proc κ) : Proc κ × Option Stop :=
  if p.mem p.pc = int3 then (p.pastInt3, some (.signal .SIGTRAP .SI_KERNEL)) else env.exec p

abbrev DebuggerM (κ α : Type) : Type := Action (Debugger κ) α

namespace Debugger

-- Files one request. The answer is the kernel's.
def note (s : Debugger κ) (request : Request) (granted : Bool) : Debugger κ :=
  { s with log := (request, granted) :: s.log }

def withMem (s : Debugger κ) (mem : Memory) : Debugger κ :=
  { s with debugee := { s.debugee with mem } }

def withRegs (s : Debugger κ) (regs : RegsStruct) : Debugger κ :=
  { s with debugee := { s.debugee with regs } }

-- The debugee after it ran to `p` and stopped. A byte the run changed is the
-- debugee's own from then on.
def settle (s : Debugger κ) (p : Proc κ) (info : Stop) : Debugger κ :=
  { s with
    debugee := p
    resumed := none
    info
    image := fun a => if p.mem a = s.debugee.mem a then s.image a else p.mem a
    written := fun a => s.written a || p.mem a ≠ s.debugee.mem a }

-- The site of the latest granted poke at `a`.
def lastPoke (a : UWORD) : List (Request × Bool) → Option PokeSite
  | [] => none
  | (.pokeData site addr _, true) :: log => if addr = a then some site else lastPoke a log
  | _ :: log => lastPoke a log

-- The byte at `a` is an int3 that the debugger put there, be it over another byte
-- or over an int3 of the program.
def ownInt3 (s : Debugger κ) (a : UWORD) : Bool :=
  s.debugee.mem a.toNat = int3 &&
    (s.image a.toNat ≠ int3 || lastPoke a s.log = some .enable)

end Debugger

def request (env : Env κ) (req : Request) : DebuggerM κ Bool := fun s =>
  let granted := !env.fault s.log.length
  (.ok granted, s.note req granted)

-- The requests that return PTRACE_ERROR when the kernel refuses them.
def ptrace (env : Env κ) (req : Request) : DebuggerM κ Unit := do
  if ← request env req then pure () else Action.fail Errors.PTRACE_ERROR.code

def ptracePeekData (env : Env κ) (addr : UWORD) : DebuggerM κ UWORD := do
  ptrace env (.peekData addr)
  let s ← Action.fetch
  pure (readWord s.debugee.mem addr.toNat)

-- `if (ptrace(PTRACE_POKEDATA, ...) == -1) return PTRACE_ERROR;`
def ptracePokeData (env : Env κ) (site : PokeSite) (addr data : UWORD) : DebuggerM κ Unit := do
  ptrace env (.pokeData site addr data)
  Action.change fun s => s.withMem (writeWord s.debugee.mem addr.toNat data)

def getRegsStruct (env : Env κ) : DebuggerM κ RegsStruct := do
  ptrace env .getRegs
  let s ← Action.fetch
  pure s.debugee.regs

def setRegsStruct (env : Env κ) (regs : RegsStruct) : DebuggerM κ Unit := do
  ptrace env .setRegs
  Action.change fun s => s.withRegs regs

def getRegValue (env : Env κ) (reg : REGISTER) : DebuggerM κ WORD := do
  let regs ← getRegsStruct env
  pure (regs.get reg)

-- `get_register` finds every register that a `REGISTER` names.
def setRegValue (env : Env κ) (reg : REGISTER) (value : WORD) : DebuggerM κ Unit := do
  let regs ← getRegsStruct env
  setRegsStruct env (regs.set reg value)

def singleStep (env : Env κ) : DebuggerM κ Unit := do
  ptrace env .singleStep
  Action.change fun s => { s with resumed := some .step }

def debugContinue (env : Env κ) : DebuggerM κ Unit := do
  ptrace env .cont
  Action.change fun s => { s with resumed := some .cont }

-- The run of the debugee that a `waitpid` sees the end of.
def awaitStop (env : Env κ) : DebuggerM κ Unit := fun s =>
  match s.resumed with
  | none => (.pending, s)
  | some .step =>
      let (p, stop) := cpuStep env s.debugee
      (.ok (), s.settle p (stop.getD (.signal .SIGTRAP (env.stepCode s.debugee))))
  | some .cont =>
      match runToStop (cpuStep env) env.fuel s.debugee with
      | none => (.pending, s)
      | some (p, stop) => (.ok (), s.settle p stop)

def debugeeTerminated (info : Stop) : Bool := info = .exited

def waitpid (env : Env κ) : DebuggerM κ Unit := do
  if ← request env .waitpid then awaitStop env else Action.fail Errors.WAIT_PID_ERROR.code

def waitForSignal (env : Env κ) : DebuggerM κ Unit := do
  waitpid env
  let s ← Action.fetch
  Action.failIf (debugeeTerminated s.info) Errors.DEBUGEE_EXITED.code

def getSiginfo (env : Env κ) : DebuggerM κ Stop := do
  ptrace env .getSiginfo
  let s ← Action.fetch
  pure s.info

def handleSigtrap (env : Env κ) (si_code : SiCode) : DebuggerM κ Unit :=
  match si_code with
  | .SI_KERNEL | .TRAP_BRKPT => do
      let regs ← getRegsStruct env
      setRegsStruct env (regs.set .rip (regs.get .rip - 1))
  | _ => pure ()

-- Files the call next to making it.
def recordTrap (env : Env κ) (siCode : SiCode) (handler : DebuggerM κ Unit) : DebuggerM κ Unit :=
  fun s =>
    let (res, t) := handler s
    let pc := s.debugee.regs.rip
    let granted := !env.fault s.log.length && !env.fault (s.log.length + 1)
    let trap := ⟨siCode, pc, s.ownInt3 (pc - 1), granted, t.debugee.regs.rip⟩
    (res, { t with traps := trap :: t.traps })

def waitAndHandleSignal (env : Env κ) : DebuggerM κ Unit := do
  waitForSignal env
  match ← getSiginfo env with
  | .signal .SIGTRAP si_code => recordTrap env si_code (handleSigtrap env si_code)
  | _ => Action.fail (-1)

end VDebugger
