import VDebugger.Command.Alongside
import VDebugger.Command.Order
import VDebugger.Handlers.Backtrace
import VDebugger.Var.Params

namespace VDebugger

open Machine HandlerM Printing

variable {κ γ : Type} {env : Env κ} {var : VarEnv κ} {types : TypeEnv} {s t : Debugger κ}

section Inspects

-- The debugger has only looked: into the debugee, with requests that leave it at rest, and
-- into the debug information, where the lookups move the position among the units.
structure Inspects (s t : Debugger κ) : Prop where
  looksUp : LooksUp s t
  resumed : t.resumed = s.resumed
  info : t.info = s.info
  image : t.image = s.image
  dwarfDbg : ∃ lookups : List CuLookup, t.dwarfDbg = lookups.foldl CuLookup.run s.dwarfDbg
  log : ∃ more, t.log = more ++ s.log ∧ ∀ event ∈ more, event.1.atRest = true

theorem Inspects.refl (s : Debugger κ) : Inspects s s :=
  ⟨.refl s, rfl, rfl, rfl, ⟨[], rfl⟩, ⟨[], rfl, fun _ hmem => nomatch hmem⟩⟩

theorem Inspects.trans (s t u : Debugger κ) (h : Inspects s t) (h' : Inspects t u) :
    Inspects s u := by
  obtain ⟨lookups, hlookups⟩ := h.dwarfDbg
  obtain ⟨lookups', hlookups'⟩ := h'.dwarfDbg
  obtain ⟨more, hmore, hquiet⟩ := h.log
  obtain ⟨more', hmore', hquiet'⟩ := h'.log
  refine ⟨h.looksUp.trans _ _ _ h'.looksUp, h'.resumed.trans h.resumed, h'.info.trans h.info,
    h'.image.trans h.image, ⟨lookups ++ lookups', ?_⟩, ⟨more' ++ more, ?_, ?_⟩⟩
  · rw [List.foldl_append, ← hlookups, hlookups']
  · rw [hmore', hmore, List.append_assoc]
  · intro event hmem
    rcases List.mem_append.mp hmem with hmem | hmem
    · exact hquiet' event hmem
    · exact hquiet event hmem

theorem Inspects.note {req : Request} (hreq : req.atRest = true) (s : Debugger κ)
    (granted : Bool) : Inspects s (s.note req granted) :=
  ⟨⟨rfl, rfl, rfl, rfl⟩, rfl, rfl, rfl, ⟨[], rfl⟩,
    ⟨[(req, granted)], rfl, fun _ hmem => List.mem_singleton.mp hmem ▸ hreq⟩⟩

theorem Inspects.search (lookup : CuLookup) (s : Debugger κ) :
    Inspects s { s with dwarfDbg := lookup.run s.dwarfDbg } :=
  ⟨⟨rfl, rfl, rfl, rfl⟩, rfl, rfl, rfl, ⟨[lookup], rfl⟩, ⟨[], rfl, fun _ hmem => nomatch hmem⟩⟩

theorem Inspects.atRest (h : Inspects s t) (hs : AtRest s) : AtRest t := by
  obtain ⟨more, hlog, hquiet⟩ := h.log
  have hstay (phase : Phase) (hphase : phase = .stopped ∨ phase = .lost) :
      phaseAfter Phase.next phase more = some phase := by
    refine phaseAfter_idle fun event hmem => ?_
    have hreq := hquiet event hmem
    obtain ⟨req, granted⟩ := event
    rcases hphase with rfl | rfl <;> cases req <;> first | rfl | exact nomatch hreq
  unfold AtRest Debugger.phase at *
  rw [hlog, h.resumed]
  rcases hs with ⟨hphase, hresumed⟩ | ⟨hphase, hresumed⟩
  · exact .inl ⟨(phaseAfter_append more hphase).trans (hstay _ (.inl rfl)), hresumed⟩
  · exact .inr ⟨(phaseAfter_append more hphase).trans (hstay _ (.inr rfl)), hresumed⟩

theorem Inspects.dwarfDbg_eq (h : Inspects s t) (hs : Settled s) : t.dwarfDbg = s.dwarfDbg := by
  obtain ⟨lookups, hlookups⟩ := h.dwarfDbg
  obtain ⟨hread, hcursor⟩ := hs
  have hstart : s.dwarfDbg = ⟨s.dwarfDbg.cus, 0⟩ := by
    rw [← hcursor]
  rw [hlookups, hstart]
  exact CuLookup.foldl_run hread lookups

theorem ptrace_inspects {req : Request} (hreq : req.atRest = true) :
    (ptrace env req).Keeps Inspects := by
  have hrequest : (request env req).Keeps Inspects := fun s => .note hreq s _
  refine Action.Keeps.bind Inspects.trans hrequest fun granted => ?_
  cases granted <;> exact Inspects.refl

theorem inspects_kept (env : Env κ) : KeptByLooking env Inspects where
  refl := Inspects.refl
  trans := Inspects.trans
  getRegs := Action.Keeps.bind Inspects.trans (ptrace_inspects rfl) fun _ => Inspects.refl
  peekData _ := Action.Keeps.bind Inspects.trans (ptrace_inspects rfl) fun _ => Inspects.refl
  search := Inspects.search

end Inspects

section Variables

theorem handleParamVar_inspects (env : Env κ) (var : VarEnv κ) (types : TypeEnv)
    (mode : VAR_OPTIONS) : (handleParamVar env var types mode).KeepsState Inspects := by
  have hblock : KeepsState Inspects (Action.block : Printing (Debugger κ) Char Unit) :=
    fun s => .refl s.1
  have hfail (code : Int) : KeepsState Inspects (Action.fail code : Printing (Debugger κ) Char Unit) :=
    fun s => .refl s.1
  have hwrite (text : CString) :
      KeepsState Inspects (write text : Printing (Debugger κ) Char Unit) :=
    .write Inspects.refl text
  have hname (i : Nat) (fparam : Die) :
      KeepsState Inspects (printParamName i fparam : Printing (Debugger κ) Char Unit) := by
    unfold printParamName
    cases fparam.attrs.name with
    | error => exact hfail 1
    | noEntry => exact hwrite _
    | ok fparamName => exact hwrite _
  have hvalue (locInfo : LocInfo) (i : Nat) (fparam : Die) :
      KeepsState Inspects (printParamValue env var types mode locInfo i fparam) := by
    have hlocation : (varLocation var locInfo (some fparam) .DW_AT_location).Keeps Inspects :=
      (inspects_kept env).same fun _ => rfl
    refine KeepsState.bind Inspects.trans (.quiet hlocation.attempt) fun found => ?_
    cases found with
    | none => exact hwrite _
    | some varAddr =>
        cases mode
        case GET_VAR_ADDR_OPTION => exact hwrite _
        case GET_VAR_VALUE_OPTION =>
          refine KeepsState.bind Inspects.trans
            (.quiet (sprintVariableDieVal_keeps (inspects_kept env) _ _ _).attempt) fun found => ?_
          cases found <;> exact hwrite _
        all_goals exact hfail 1
  have hloop (locInfo : LocInfo) (die : Die) (passes i : Nat) (fparam : Option Nat) :
      KeepsState Inspects (paramLoop env var types mode locInfo die passes i fparam) := by
    induction passes generalizing i fparam with
    | zero => exact hblock
    | succ passes ih =>
        unfold paramLoop
        split
        · exact hblock
        · exact fun s => .refl s.1
        · exact hfail 1
        · split
          · exact hblock
          · exact KeepsState.bind Inspects.trans (hname _ _) fun _ =>
              KeepsState.bind Inspects.trans (hvalue _ _ _) fun _ => ih _ _
  have hscope := localScope_keeps (inspects_kept env) var
  refine KeepsState.bind Inspects.trans (.quiet hscope) fun found => ?_
  dsimp only
  split
  · exact hfail 1
  · exact hfail 1
  · exact KeepsState.bind Inspects.trans (hwrite _) fun _ => hloop _ _ _ _ _

theorem backtrace_inspects (env : Env κ) (unw : Unwinder κ γ) (fuel : Nat) :
    (backtrace env unw fuel).KeepsState Inspects := by
  have hwrite (text : CString) :
      KeepsState Inspects (do write text; Action.fail 1 : Printing (Debugger κ) Char Unit) :=
    KeepsState.bind Inspects.trans (.write Inspects.refl text) fun _ s => .refl s.1
  have hframe (cursor : γ) : KeepsState Inspects (printFrame unw cursor) := by
    intro s
    obtain ⟨s, out⟩ := s
    rw [printFrame_run]
    cases frameError unw cursor <;> exact .refl s
  have hloop (cursor : γ) : KeepsState Inspects (backtraceLoop unw fuel cursor) := by
    induction fuel generalizing cursor with
    | zero => exact fun s => .refl s.1
    | succ fuel ih =>
        refine KeepsState.bind Inspects.trans (hframe cursor) fun _ => ?_
        dsimp only
        split_ifs
        · exact ih _
        · exact hwrite _
        · exact fun s => .refl s.1
  refine KeepsState.bind Inspects.trans (.quiet Inspects.refl) fun s =>
    KeepsState.bind Inspects.trans (fun t => ?_) fun _ => hloop _
  by_cases hinit : env.unwInitRemote s.debugee < 0
  · rw [Action.failIf_of hinit]
    exact .refl t.1
  · rw [Action.failIf_of_not hinit]
    exact .refl t.1

-- The debugger with its own `handle_param_var` and its own printer in it.
def VarEnv.withParams (var : VarEnv κ) (env : Env κ) (types : TypeEnv) : VarEnv κ :=
  { var.withPrinter env types with
    handleParamVar := fun mode => (VDebugger.handleParamVar env var types mode).silent }

theorem onlyLooks_withParams (env : Env κ) (var : VarEnv κ) (types : TypeEnv)
    (unw : Unwinder κ γ) (fuel : Nat) :
    OnlyLooks Inspects (var.withParams env types) (VDebugger.backtrace env unw fuel).silent where
  backtrace := (backtrace_inspects env unw fuel).silent
  handleParamVar mode := (handleParamVar_inspects env var types mode).silent
  sprintVariableDieVal _ _ :=
    (inspects_kept env).bind (sprintVariableDieVal_keeps (inspects_kept env) _ _ _) fun _ =>
      Inspects.refl

end Variables

end VDebugger
