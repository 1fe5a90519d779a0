import VDebugger.Handlers.Protocol

namespace VDebugger

open Machine HandlerM Action

variable {κ γ α β : Type} {env : Env κ} {var : VarEnv κ} {types : TypeEnv} {s t u : Debugger κ}
  {backtraceCall : DebuggerM κ Unit} {tokens : List CString}

section Handlers

variable {rel : Debugger κ → Debugger κ → Prop}

theorem respects_call {y : DebuggerM κ α} (h : y.Respects rel) : (call y).run.Respects rel := by
  intro s t hst
  obtain ⟨hres, hstate⟩ := h s t hst
  rw [run_call, run_call]
  rcases hs : y s with ⟨res, s'⟩
  rcases ht : y t with ⟨res', t'⟩
  rw [hs, ht] at hres hstate
  cases hres
  cases res <;> exact ⟨rfl, hstate⟩

theorem respects_handler {x : HandlerM κ α} {f : α → HandlerM κ β} (hx : x.run.Respects rel)
    (hf : ∀ a, (f a).run.Respects rel) : (x >>= f).run.Respects rel :=
  Respects.bind hx fun found => by
    cases found with
    | none => exact Respects.pure none
    | some a => exact hf a

theorem rejectIf_respects (c : Prop) [Decidable c] (code : Int) :
    (rejectIf c code : HandlerM κ Unit).run.Respects rel := respects_call (Respects.failIf c code)

theorem reject_respects (code : Int) : (reject code : HandlerM κ α).run.Respects rel :=
  respects_call (Respects.fail code)

theorem strtoll_respects (base : Nat) (token : Option CString) :
    (strtoll base token : HandlerM κ (WORD × CString)).run.Respects rel := by
  intro s t hst
  cases token with
  | none => exact ⟨rfl, hst⟩
  | some characters => exact ⟨rfl, hst⟩

theorem respects_fetch {f : Debugger κ → HandlerM κ β} (hread : ∀ s t, rel s t → f s = f t)
    (hf : ∀ s, (f s).run.Respects rel) : (call Action.fetch >>= f).run.Respects rel := by
  intro s t hst
  rw [run_bind_ok (run_call_ok (fetch_apply s)), run_bind_ok (run_call_ok (fetch_apply t)),
    hread s t hst]
  exact hf t s t hst

theorem breakpointArg_respects (h : Steady env) (mode : BREAKPOINT_OPTIONS) (argToken : CString)
    (tokens : List CString) : (breakpointArg env mode argToken tokens).run.Respects SameCourse := by
  cases mode with
  | BREAKPOINT_ARG_MEMADDR =>
      refine respects_handler (strtoll_respects 16 _) ?_
      rintro ⟨arg, argEnd⟩
      exact respects_handler (rejectIf_respects _ _) fun _ => Respects.pure _
  | BREAKPOINT_ARG_LINENUM =>
      refine respects_handler (strtoll_respects 10 _) ?_
      rintro ⟨arg, argEnd⟩
      refine respects_handler (rejectIf_respects _ _) fun _ => ?_
      intro s t hst
      have hsearch : (getAddrFromSourceLine (env.undef s.log.length) argToken arg s.dwarfDbg).2 =
          s.dwarfDbg :=
        (getAddrFromSourceLine_search _ _ _ _).trans (hst.settled.lookup_eq _)
      rw [run_bind_ok (run_call_ok (fetch_apply s)), run_bind_ok (run_call_ok (fetch_apply t))]
      dsimp only
      rw [hst.dwarfDbg, h.undef t.log.length s.log.length]
      generalize getAddrFromSourceLine (env.undef s.log.length) argToken arg s.dwarfDbg = found
        at hsearch ⊢
      obtain ⟨res, dwarfDbg⟩ := found
      obtain rfl : dwarfDbg = s.dwarfDbg := hsearch
      refine respects_handler (respects_call (Respects.change fun u v huv => ⟨hst.settled,
        huv.loadAddress, huv.breakpoints, rfl, huv.debugee, huv.resumed, huv.info⟩)) (fun _ => ?_)
        s t hst
      cases res with
      | ok addr => exact Respects.pure _
      | noEntry | error => exact reject_respects 1
  | ENABLE_BREAKPOINT | DISABLE_BREAKPOINT | INVALID_BREAKPOINT_OPT => exact reject_respects _

theorem handleBreakpoint_respects (h : Steady env) (tokens : List CString) :
    (handleBreakpoint env tokens).run.Respects SameCourse := by
  refine respects_handler (rejectIf_respects _ _) fun _ => ?_
  cases tokens[2]? with
  | none => exact reject_respects 1
  | some argToken =>
      refine respects_handler (breakpointArg_respects h _ argToken tokens) fun arg =>
        respects_fetch (fun s t hst => by rw [hst.loadAddress]) fun s => ?_
      cases matchBreakpointOption tokens[0]?
      case ENABLE_BREAKPOINT => exact respects_call (handleBreakpointAt_respects h _ _)
      case DISABLE_BREAKPOINT => exact respects_call (handleBreakpointAt_respects h _ _)
      all_goals
        exact respects_handler (respects_call (getBreakpointAtAddr_respects env _)) fun found =>
          rejectIf_respects _ _

theorem registerArg_respects (h : Steady env) (mode : REGISTER_OPTIONS) (base : Nat)
    (arg : Option CString) : (registerArg env mode base arg).run.Respects SameCourse := by
  have hundef : (do
      let s ← call Action.fetch
      pure ((env.undef s.log.length).toNat % 2 ^ 32) : HandlerM κ Nat).run.Respects SameCourse :=
    respects_fetch (fun s t _ => by rw [h.undef s.log.length t.log.length]) fun _ =>
      Respects.pure _
  cases mode
  case REGISTER_ARG_ABBR =>
    intro s t hst
    cases arg <;> exact ⟨rfl, hst⟩
  case REGISTER_ARG_DWARF =>
    refine respects_handler (strtoll_respects base arg) ?_
    rintro ⟨n, rest⟩
    exact respects_handler (rejectIf_respects _ _) fun _ => Respects.pure _
  all_goals exact hundef

theorem handleRegister_write_respects (h : Steady env)
    (hwrite : matchRegisterOption tokens[0]? = .WRITE_REGISTER) :
    (handleRegister env tokens).run.Respects SameCourse := by
  unfold handleRegister
  rw [hwrite]
  refine respects_handler (rejectIf_respects _ _) fun _ =>
    respects_handler (respects_call (getRegsStruct_respects h)) fun _ =>
      respects_handler (rejectIf_respects _ _) fun _ =>
        respects_handler (registerArg_respects h _ 10 _) fun reg =>
          respects_handler (rejectIf_respects _ _) fun _ =>
            respects_handler (rejectIf_respects _ _) fun _ =>
              respects_handler (strtoll_respects 10 _) ?_
  rintro ⟨value, rest⟩
  refine respects_handler (rejectIf_respects _ _) fun _ => ?_
  cases getRegister reg with
  | none =>
      exact respects_handler (respects_call (getRegsStruct_respects h).attempt) fun _ =>
        Respects.pure _
  | some reg =>
      exact respects_handler (respects_call (setRegValue_respects h reg value).attempt) fun _ =>
        Respects.pure _

theorem handleStep_respects (h : Steady env) (tokens : List CString) :
    (handleStep env tokens).run.Respects SameCourse := by
  refine respects_handler (rejectIf_respects _ _) fun _ =>
    respects_handler (strtoll_respects 10 _) ?_
  rintro ⟨times, rest⟩
  exact respects_handler (rejectIf_respects _ _) fun _ =>
    respects_call (handleStepLoop_respects h _)

end Handlers

section Looks

-- The commands that only look: `where`, `backtrace`, `var`, `peek`, `reg` unless it writes, and
-- what is no command.
def looks (command : List CString) : Bool :=
  match matchCommand command.head? with
  | .WHERE | .BACKTRACE | .VAR | .PEEK_DATA | .INVALID_CMD => true
  | .REG => matchRegisterOption command.tail[0]? ≠ .WRITE_REGISTER
  | .CONTINUE | .BREAKPOINT | .STEP | .FINISH | .NEXT | .EXIT => false

theorem looks_inspects (env : Env κ) (h : OnlyLooks Inspects var backtraceCall)
    {command : List CString} (hlooks : looks command = true) :
    (handleTokens env var backtraceCall (matchCommand command.head?) command.tail).run.Keeps
      Inspects := by
  unfold looks at hlooks
  cases hcmnd : matchCommand command.head? <;> rw [hcmnd] at hlooks
  case WHERE => exact handleWhere_keeps (inspects_kept env) _
  case BACKTRACE => exact keeps_call h.backtrace
  case VAR => exact handleVar_keeps (inspects_kept env) h _
  case PEEK_DATA => exact handlePeek_keeps (inspects_kept env) _
  case INVALID_CMD => exact Inspects.refl
  case REG => exact handleRegister_keeps (inspects_kept env) (of_decide_eq_true hlooks)
  all_goals exact nomatch hlooks

theorem runs_respects (h : Steady env) {command : List CString} (hruns : looks command = false) :
    (handleTokens env var backtraceCall (matchCommand command.head?) command.tail).run.Respects
      SameCourse := by
  unfold looks at hruns
  cases hcmnd : matchCommand command.head? <;> rw [hcmnd] at hruns
  case CONTINUE => exact respects_call (handleContinue_respects h)
  case BREAKPOINT => exact handleBreakpoint_respects h _
  case STEP => exact handleStep_respects h _
  case FINISH => exact respects_call (stepOut_respects h)
  case NEXT => exact respects_call (handleCommand_respects h .next)
  case EXIT => exact reject_respects 1
  case REG => exact handleRegister_write_respects h (not_not.mp (of_decide_eq_false hruns))
  all_goals exact nomatch hruns

theorem SameCourse.look (h : SameCourse s t) (hlook : Inspects s u) : SameCourse u t := by
  have hdwarfDbg := hlook.dwarfDbg_eq h.settled
  refine ⟨?_, h.loadAddress.trans hlook.looksUp.loadAddress.symm,
    h.breakpoints.trans hlook.looksUp.breakpoints.symm, h.dwarfDbg.trans hdwarfDbg.symm,
    h.debugee.trans hlook.looksUp.debugee.symm, h.resumed.trans hlook.resumed.symm,
    h.info.trans hlook.info.symm⟩
  unfold Settled
  rw [hdwarfDbg]
  exact h.settled

end Looks

section Replies

variable {σ : Type} {handle : Handler σ}

-- What the loop is told, `none` where it ends with the command that is read.
def Session.reply (handle : Handler σ) (dbg : σ) (command : List CString) : Option Int × σ :=
  if matchCommand command.head? = .EXIT then (none, dbg)
  else
    let (res, dbg) := handle dbg (matchCommand command.head?) command.tail
    (some res, dbg)

def endsLoop : Option Int → Bool
  | none => true
  | some res => res = Errors.DEBUGEE_EXITED.code

def Session.replies (handle : Handler σ) (commands : List (List CString)) (dbg : σ) :
    List (List CString × Option Int) × σ :=
  answers (Session.reply handle) endsLoop commands dbg

theorem Session.command_eq (handle : Handler σ) (s : Session σ) (command : List CString) :
    s.command handle command = (endsLoop (Session.reply handle s.dbg command).1,
      ⟨(Session.reply handle s.dbg command).2, s.delivered ++ [command]⟩) := by
  unfold Session.command Session.reply
  dsimp only
  split_ifs
  · rfl
  · rfl

theorem Session.run_eq_replies (handle : Handler σ) (commands : List (List CString))
    (s : Session σ) : Session.run handle commands s =
      ⟨(Session.replies handle commands s.dbg).2,
        s.delivered ++ (Session.replies handle commands s.dbg).1.map Prod.fst⟩ := by
  unfold Session.replies
  induction commands generalizing s with
  | nil => simp [Session.run, answers]
  | cons command commands ih =>
      rcases hreply : Session.reply handle s.dbg command with ⟨answer, next⟩
      have hcommand := Session.command_eq handle s command
      rw [hreply] at hcommand
      rw [Session.run, hcommand]
      cases hlast : endsLoop answer with
      | true =>
          rw [answers_cons_last hreply hlast]
          rfl
      | false =>
          rw [answers_cons_more hreply hlast]
          simp [ih]

end Replies

section Sessions

theorem promptHandler_respects {cmnd : COMMAND}
    (h : (handleTokens env var backtraceCall cmnd tokens).run.Respects SameCourse)
    (hst : SameCourse s t) :
    (promptHandler env var backtraceCall s cmnd tokens).1 =
        (promptHandler env var backtraceCall t cmnd tokens).1 ∧
      SameCourse (promptHandler env var backtraceCall s cmnd tokens).2
        (promptHandler env var backtraceCall t cmnd tokens).2 := by
  obtain ⟨hres, hstate⟩ := h s t hst
  unfold promptHandler
  rcases hs : (handleTokens env var backtraceCall cmnd tokens).run s with ⟨res, s'⟩
  rcases ht : (handleTokens env var backtraceCall cmnd tokens).run t with ⟨res', t'⟩
  rw [hs, ht] at hres hstate
  cases hres
  rcases res with (_ | _) | _ | _ <;> exact ⟨rfl, hstate⟩

-- What only looks can be left out of a session. The other commands give the same results, the
-- session ends with the same one of them, and the debugee, the breakpoints and the position in
-- the debug information are the same at its end.
theorem session_erases (h : Steady env) (var : VarEnv κ) (types : TypeEnv) (unw : Unwinder κ γ)
    (fuel : Nat) (commands : List (List CString)) {dbg : Debugger κ} (hdbg : Settled dbg) :
    let handle := promptHandler env (var.withParams env types)
      (VDebugger.backtrace env unw fuel).silent
    let full := Session.run handle commands ⟨dbg, []⟩
    let kept := full.delivered.filter fun command => !looks command
    let erased := Session.run handle kept ⟨dbg, []⟩
    erased.delivered = kept ∧ SameCourse full.dbg erased.dbg ∧
      (Session.replies handle kept dbg).1 =
        (Session.replies handle commands dbg).1.filter fun reply => !looks reply.1 := by
  intro handle full kept erased
  have hinspects := onlyLooks_withParams env var types unw fuel
  have hquiet (s t : Debugger κ) (command : List CString) (hlooks : looks command = true)
      (hst : SameCourse s t) : SameCourse (Session.reply handle s command).2 t := by
    unfold Session.reply
    split_ifs
    · exact hst
    · have hlook := looks_inspects env hinspects hlooks s
      rw [← promptHandler_state] at hlook
      exact hst.look hlook
  have hloud (s t : Debugger κ) (command : List CString) (hruns : looks command = false)
      (hst : SameCourse s t) :
      (Session.reply handle s command).1 = (Session.reply handle t command).1 ∧
        SameCourse (Session.reply handle s command).2 (Session.reply handle t command).2 := by
    unfold Session.reply
    split_ifs
    · exact ⟨rfl, hst⟩
    · obtain ⟨hres, hstate⟩ := promptHandler_respects (runs_respects h hruns) hst
      exact ⟨congrArg some hres, hstate⟩
  obtain ⟨hreplies, hcourse⟩ := answers_erase endsLoop hquiet hloud commands (.refl hdbg)
  have hfull : full = ⟨(Session.replies handle commands dbg).2,
      (Session.replies handle commands dbg).1.map Prod.fst⟩ :=
    Session.run_eq_replies handle commands ⟨dbg, []⟩
  have hkept : kept = ((Session.replies handle commands dbg).1.map Prod.fst).filter
      fun command => !looks command :=
    congrArg (fun done : Session (Debugger κ) => done.delivered.filter fun command =>
      !looks command) hfull
  have herased : erased = ⟨(Session.replies handle kept dbg).2,
      (Session.replies handle kept dbg).1.map Prod.fst⟩ :=
    Session.run_eq_replies handle kept ⟨dbg, []⟩
  have hsame : (Session.replies handle kept dbg).1 =
      (Session.replies handle commands dbg).1.filter fun reply => !looks reply.1 := by
    rw [hkept]
    exact hreplies
  refine ⟨?_, ?_, hsame⟩
  · rw [herased, hsame, hkept, List.filter_map]
    rfl
  · rw [hfull, herased, hkept]
    exact hcourse

theorem where_erased :
    let handle := promptHandler nopEnv (implicitVarEnv.withParams nopEnv (unsignedTypes 8))
      (VDebugger.backtrace nopEnv threeFrames 8).silent
    let start := ⟨atPrompt (fun _ => 0x90) 0x2000, []⟩
    let full := Session.run handle
      [["where".toList, "addr".toList], ["step".toList, "1".toList], ["var".toList]] start
    let erased := Session.run handle [["step".toList, "1".toList]] start
    full.dbg.log.length = 5 ∧ erased.dbg.log.length = 4 ∧ SameCourse full.dbg erased.dbg := by
  intro handle start full erased
  have hsettled : Settled (atPrompt (fun _ => 0x90) 0x2000) := ⟨fun _ hmem => (nomatch hmem), rfl⟩
  have hsteady : Steady nopEnv := ⟨fun _ => rfl, fun _ _ => rfl⟩
  obtain ⟨-, hcourse, -⟩ := session_erases hsteady implicitVarEnv
    (unsignedTypes 8) threeFrames 8
    [["where".toList, "addr".toList], ["step".toList, "1".toList], ["var".toList]] hsettled
  have hkept : full.delivered.filter (fun command => !looks command) =
      [["step".toList, "1".toList]] := by
    decide +kernel
  have herased : erased = Session.run handle
      (full.delivered.filter fun command => !looks command) start :=
    congrArg (fun kept => Session.run handle kept start) hkept.symm
  refine ⟨by decide +kernel, by decide +kernel, ?_⟩
  rw [herased]
  exact hcourse

end Sessions

end VDebugger
