import VDebugger.Command
import VDebugger.Machine.Contract

namespace VDebugger

open Machine Action

variable {κ α : Type} {env : Env κ} {s t : Debugger κ}

section Phases

-- What the debugger takes the debugee for, by the requests that it has made.
inductive Phase where
  | stopped
  -- The debugee has been resumed and `waitpid` has not been called.
  | running
  -- `waitpid` has returned, and the cause of the stop has not been asked for.
  | reported
  -- `waitpid` was refused: no request is held back, but the debugee may still run.
  | lost
  deriving DecidableEq, Repr

-- `none` for a request that is out of turn.
def Phase.next : Phase → Request × Bool → Option Phase
  | .running, (.waitpid, true) => some .reported
  | .running, (.waitpid, false) => some .lost
  | .running, _ => none
  | .reported, (.getSiginfo, _) => some .stopped
  | .reported, _ => none
  | _, (.waitpid, _) => none
  | _, (.getSiginfo, _) => none
  | _, (.singleStep, true) => some .running
  | _, (.cont, true) => some .running
  | phase, _ => some phase

def Debugger.phase (s : Debugger κ) : Option Phase := phaseAfter Phase.next .stopped s.log

def InOrder (s : Debugger κ) : Prop := s.phase.isSome

def Running (s : Debugger κ) : Prop := s.phase = some .running ∧ s.resumed ≠ none

def Reported (s : Debugger κ) : Prop := s.phase = some .reported ∧ s.resumed = none

-- The debugger between two commands.
def AtRest (s : Debugger κ) : Prop :=
  s.phase = some .stopped ∧ s.resumed = none ∨ s.phase = some .lost ∧ s.resumed ≠ none

-- Nothing more is asked of a debugee that is gone.
def AfterError (code : Int) (s : Debugger κ) : Prop :=
  if code = Errors.DEBUGEE_EXITED.code then InOrder s else AtRest s

-- The requests that are made of a debugee at rest and leave it at rest.
def Request.atRest : Request → Bool
  | .getRegs | .setRegs | .peekData _ | .pokeData _ _ _ => true
  | .waitpid | .getSiginfo | .singleStep | .cont => false

theorem AtRest.inOrder (h : AtRest s) : InOrder s := by
  unfold InOrder
  rcases h with ⟨hphase, -⟩ | ⟨hphase, -⟩ <;> rw [hphase] <;> rfl

theorem AtRest.afterError (code : Int) (h : AtRest s) : AfterError code s := by
  unfold AfterError
  split
  · exact h.inOrder
  · exact h

theorem AtRest.congr (h : AtRest s) (hlog : t.log = s.log) (hresumed : t.resumed = s.resumed) :
    AtRest t := by
  unfold AtRest Debugger.phase at *
  rwa [hlog, hresumed]

theorem AtRest.note {req : Request} (h : AtRest s) (hreq : req.atRest = true) (granted : Bool) :
    AtRest (s.note req granted) := by
  have hstay (phase : Phase) (hphase : phase = .stopped ∨ phase = .lost) :
      phase.next (req, granted) = some phase := by
    rcases hphase with rfl | rfl <;> cases req <;> first | rfl | exact nomatch hreq
  rcases h with ⟨hphase, hresumed⟩ | ⟨hphase, hresumed⟩
  · exact .inl ⟨(phaseAfter_cons hphase _).trans (hstay _ (.inl rfl)), hresumed⟩
  · exact .inr ⟨(phaseAfter_cons hphase _).trans (hstay _ (.inr rfl)), hresumed⟩

-- From rest the debugger asks for one thing after the other and comes to rest again.
def Orderly (x : DebuggerM κ α) : Prop := x.Meets AtRest (fun _ => AtRest) AfterError InOrder

theorem Orderly.of_preserves {x : DebuggerM κ α} (h : x.Preserves AtRest) : Orderly x :=
  Meets.of_preserves h (fun code _ hs => hs.afterError code) fun _ hs => hs.inOrder

theorem Orderly.bind {β : Type} {x : DebuggerM κ α} {f : α → DebuggerM κ β} (hx : Orderly x)
    (hf : ∀ a, Orderly (f a)) : Orderly (x >>= f) :=
  Meets.bind hx hf

end Phases

section Requests

theorem ptrace_atRest {req : Request} (hreq : req.atRest = true) :
    (ptrace env req).Preserves AtRest := by
  have hrequest : (request env req).Preserves AtRest := fun s hs => AtRest.note hs hreq _
  refine hrequest.bind fun granted => ?_
  cases granted
  · exact Preserves.fail _
  · exact Preserves.pure _

theorem change_atRest {f : Debugger κ → Debugger κ} (hlog : ∀ s, (f s).log = s.log)
    (hresumed : ∀ s, (f s).resumed = s.resumed) :
    (Action.change f : DebuggerM κ Unit).Preserves AtRest :=
  fun s hs => hs.congr (hlog s) (hresumed s)

theorem ptracePeekData_atRest (addr : UWORD) : (ptracePeekData env addr).Preserves AtRest :=
  Preserves.bind (ptrace_atRest rfl) fun _ => Preserves.bind Preserves.fetch fun _ => Preserves.pure _

theorem ptracePokeData_atRest (site : PokeSite) (addr data : UWORD) :
    (ptracePokeData env site addr data).Preserves AtRest :=
  Preserves.bind (ptrace_atRest rfl) fun _ => change_atRest (fun _ => rfl) fun _ => rfl

theorem getRegsStruct_atRest : (getRegsStruct env).Preserves AtRest :=
  Preserves.bind (ptrace_atRest rfl) fun _ => Preserves.bind Preserves.fetch fun _ => Preserves.pure _

theorem setRegsStruct_atRest (regs : RegsStruct) : (setRegsStruct env regs).Preserves AtRest :=
  Preserves.bind (ptrace_atRest rfl) fun _ => change_atRest (fun _ => rfl) fun _ => rfl

theorem getRegValue_atRest (reg : REGISTER) : (getRegValue env reg).Preserves AtRest :=
  Preserves.bind getRegsStruct_atRest fun _ => Preserves.pure _

theorem setRegValue_atRest (reg : REGISTER) (value : WORD) :
    (setRegValue env reg value).Preserves AtRest :=
  Preserves.bind getRegsStruct_atRest fun _ => setRegsStruct_atRest _

theorem handleSigtrap_atRest (siCode : SiCode) : (handleSigtrap env siCode).Preserves AtRest := by
  cases siCode with
  | SI_KERNEL | TRAP_BRKPT =>
      exact Preserves.bind getRegsStruct_atRest fun _ => setRegsStruct_atRest _
  | TRAP_TRACE | other _ => exact Preserves.pure ()

theorem recordTrap_atRest {handler : DebuggerM κ Unit} (h : handler.Preserves AtRest)
    (siCode : SiCode) : (recordTrap env siCode handler).Preserves AtRest :=
  fun s hs => (h s hs).congr rfl rfl

-- The two requests that resume the debugee.
theorem resume_meets {req : Request} (hreq : req = .singleStep ∨ req = .cont) (how : Resume) :
    (ptrace env req >>= fun _ => Action.change fun s => { s with resumed := some how } :
      DebuggerM κ Unit).Meets AtRest (fun _ => Running) AfterError InOrder := by
  have hptrace : (ptrace env req).Meets AtRest (fun _ s => s.phase = some .running) AfterError
      InOrder := by
    intro s hs
    have hphase : s.phase = some .stopped ∨ s.phase = some .lost := hs.imp And.left And.left
    cases hfault : env.fault s.log.length with
    | true =>
        rw [ptrace_of_refused hfault]
        refine AtRest.afterError _ ?_
        rcases hs with ⟨hstopped, hresumed⟩ | ⟨hlost, hresumed⟩
        · refine .inl ⟨(phaseAfter_cons hstopped _).trans ?_, hresumed⟩
          rcases hreq with rfl | rfl <;> rfl
        · refine .inr ⟨(phaseAfter_cons hlost _).trans ?_, hresumed⟩
          rcases hreq with rfl | rfl <;> rfl
    | false =>
        rw [ptrace_of_granted hfault]
        rcases hphase with hphase | hphase <;> refine (phaseAfter_cons hphase _).trans ?_ <;>
          rcases hreq with rfl | rfl <;> rfl
  exact hptrace.bind fun _ => Meets.change fun s hs => ⟨hs, Option.some_ne_none _⟩

theorem awaitStop_meets :
    (awaitStop env).Meets (fun s => s.phase = some .reported) (fun _ => Reported) AfterError
      InOrder := by
  intro s hs
  have hstuck : InOrder s := by
    unfold InOrder
    rw [hs]
    rfl
  unfold awaitStop
  split
  · exact hstuck
  · exact ⟨hs, rfl⟩
  · split
    · exact hstuck
    · exact ⟨hs, rfl⟩

theorem waitpid_meets : (waitpid env).Meets Running (fun _ => Reported) AfterError InOrder := by
  intro s hs
  have hrequest : request env .waitpid s = (.ok (!env.fault s.log.length),
    s.note .waitpid (!env.fault s.log.length)) := rfl
  unfold waitpid
  rw [bind_of_ok hrequest]
  cases env.fault s.log.length with
  | true =>
      refine AtRest.afterError _ (.inr ⟨?_, hs.2⟩)
      exact phaseAfter_cons hs.1 _
  | false => exact awaitStop_meets _ (phaseAfter_cons hs.1 _)

theorem waitForSignal_meets :
    (waitForSignal env).Meets Running (fun _ => Reported) AfterError InOrder := by
  refine waitpid_meets.bind fun _ => ?_
  have hfetch : (Action.fetch : DebuggerM κ (Debugger κ)).Meets Reported (fun _ => Reported)
      AfterError InOrder := Meets.fetch fun _ h => h
  refine hfetch.bind fun s => Meets.failIf (fun _ t ht => ?_) fun _ _ ht => ht
  unfold AfterError InOrder
  rw [if_pos rfl, ht.1]
  rfl

theorem getSiginfo_meets :
    (getSiginfo env).Meets Reported (fun _ => AtRest) AfterError InOrder := by
  have hptrace : (ptrace env .getSiginfo).Meets Reported (fun _ => AtRest) AfterError InOrder := by
    intro s hs
    have hrest (granted : Bool) : AtRest (s.note .getSiginfo granted) :=
      .inl ⟨phaseAfter_cons hs.1 _, hs.2⟩
    cases hfault : env.fault s.log.length with
    | true =>
        rw [ptrace_of_refused hfault]
        exact (hrest false).afterError _
    | false =>
        rw [ptrace_of_granted hfault]
        exact hrest true
  exact hptrace.bind fun _ => (Orderly.of_preserves Preserves.fetch).bind fun _ =>
    Orderly.of_preserves (Preserves.pure _)

theorem waitAndHandleSignal_meets :
    (waitAndHandleSignal env).Meets Running (fun _ => AtRest) AfterError InOrder := by
  refine waitForSignal_meets.bind fun _ => getSiginfo_meets.bind fun info => ?_
  split
  · exact Orderly.of_preserves (recordTrap_atRest (handleSigtrap_atRest _) _)
  · exact Orderly.of_preserves (Preserves.fail _)

end Requests

end VDebugger
