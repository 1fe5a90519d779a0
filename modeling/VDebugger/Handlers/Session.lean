import VDebugger.Detach
import VDebugger.Handlers.Atomic
import VDebugger.Repl

namespace VDebugger

open Machine HandlerM

variable {κ α ι : Type} {env : Env κ} {var : VarEnv κ} {backtrace : DebuggerM κ Unit}
  {rel look : Debugger κ → Debugger κ → Prop}

namespace HandlerM

variable {actions : ι → DebuggerM κ Unit}

-- The handler only looks, or ends with one of the actions behind what it looks up.
def EndsIn (actions : ι → DebuggerM κ Unit) (look rel : Debugger κ → Debugger κ → Prop)
    (x : HandlerM κ Unit) : Prop :=
  ∀ s, look s (x.run s).2 ∨ ∃ mid i, rel s mid ∧ x.run s = (call (actions i)).run mid

theorem EndsIn.of_keeps {x : HandlerM κ Unit} (h : x.run.Keeps look) : EndsIn actions look rel x :=
  fun s => .inl (h s)

theorem EndsIn.action (hrefl : ∀ s, rel s s) (i : ι) :
    EndsIn actions look rel (call (actions i)) := fun s => .inr ⟨s, i, hrefl s, rfl⟩

theorem EndsIn.bind (hbehind : ∀ s t u, rel s t → look t u → look s u)
    (htrans : ∀ s t u, rel s t → rel t u → rel s u) (hlook : ∀ s t, rel s t → look s t)
    {x : HandlerM κ α} {f : α → HandlerM κ Unit} (hx : x.run.Keeps rel)
    (hf : ∀ a, EndsIn actions look rel (f a)) : EndsIn actions look rel (x >>= f) := by
  intro s
  have hs := hx s
  rw [run_bind_apply]
  rcases hrun : x.run s with ⟨(_ | a) | _ | _, mid⟩ <;> rw [hrun] at hs
  · exact .inl (hlook s mid hs)
  · rcases hf a mid with h | ⟨last, i, h, heq⟩
    · exact .inl (hbehind s mid _ hs h)
    · exact .inr ⟨last, i, htrans s mid last hs h, heq⟩
  · exact .inl (hlook s mid hs)
  · exact .inl (hlook s mid hs)

end HandlerM

-- A handler that is one command of the step relation, behind what it looks up.
def Dispatches (env : Env κ) (rel : Debugger κ → Debugger κ → Prop) (x : HandlerM κ Unit) : Prop :=
  EndsIn (handleCommand env) rel rel x

theorem Dispatches.of_keeps {x : HandlerM κ Unit} (h : x.run.Keeps rel) : Dispatches env rel x :=
  EndsIn.of_keeps h

theorem Dispatches.command (h : KeptByLooking env rel) (command : Command) :
    Dispatches env rel (call (handleCommand env command)) := EndsIn.action h.refl command

theorem Dispatches.bind (h : KeptByLooking env rel) {x : HandlerM κ α} {f : α → HandlerM κ Unit}
    (hx : x.run.Keeps rel) (hf : ∀ a, Dispatches env rel (f a)) : Dispatches env rel (x >>= f) :=
  EndsIn.bind h.trans h.trans (fun _ _ h => h) hx hf

section Handlers

theorem handleBreakpoint_dispatches (h : KeptByLooking env rel) (tokens : List CString) :
    Dispatches env rel (handleBreakpoint env tokens) := by
  apply Dispatches.bind h (rejectIf_keeps h.refl _ _)
  intro _
  cases tokens[2]? with
  | none => exact .of_keeps h.refl
  | some argToken =>
      apply Dispatches.bind h (breakpointArg_keeps h _ argToken tokens)
      intro arg
      apply Dispatches.bind h (fetch_keeps h.refl)
      intro s
      cases matchBreakpointOption tokens[0]?
      case ENABLE_BREAKPOINT => exact .command h (.enable _)
      case DISABLE_BREAKPOINT => exact .command h (.disable _)
      all_goals
        refine .of_keeps (h.handler (keeps_call (h.same fun s => ?_)) fun found =>
          rejectIf_keeps h.refl _ _)
        rw [getBreakpointAtAddr_eq]

-- What `handle_register` does once it knows the register and the value.
def writeAttempt (env : Env κ) (write : REGISTER × WORD) : DebuggerM κ Unit := do
  let _ ← (setRegValue env write.1 write.2).attempt
  pure ()

theorem call_then_pure (x : DebuggerM κ α) (s : Debugger κ) :
    (do let _ ← call x; pure () : HandlerM κ Unit).run s =
      (call (do let _ ← x; pure () : DebuggerM κ Unit)).run s := by
  rw [run_bind_apply, run_call, run_call, Action.bind_apply]
  rcases x s with ⟨_ | _ | _, t⟩ <;> rfl

-- The registers are read before the tokens, and a write reads them again.
theorem writeAttempt_dispatches (h : KeptByLooking env rel) {rest : HandlerM κ Unit}
    (hrest : EndsIn (writeAttempt env) rel Eq rest) :
    Dispatches env rel (call (getRegsStruct env) >>= fun _ => rest) := by
  intro s
  have hlook := h.getRegs s
  rw [run_bind_apply, run_call]
  rcases hregs : getRegsStruct env s with ⟨regs | code | _, mid⟩ <;> rw [hregs] at hlook
  · rcases hrest mid with hlast | ⟨_, ⟨reg, value⟩, rfl, hlast⟩
    · exact .inl (h.trans s mid _ hlook hlast)
    · refine .inr ⟨s, .writeRegister reg value, h.refl s, hlast.trans ?_⟩
      have hwrite : handleCommand env (.writeRegister reg value) s =
          writeAttempt env (reg, value) mid :=
        Action.bind_of_ok hregs _
      rw [run_call, run_call, hwrite]
  · exact .inl hlook
  · exact .inl hlook

theorem EndsIn.after (h : KeptByLooking env rel) {x : HandlerM κ α} {f : α → HandlerM κ Unit}
    (hx : x.run.Keeps Eq) (hf : ∀ a, EndsIn (writeAttempt env) rel Eq (f a)) :
    EndsIn (writeAttempt env) rel Eq (x >>= f) := by
  refine EndsIn.bind ?_ ?_ ?_ hx hf
  · rintro s _ t rfl hlook
    exact hlook
  · rintro s _ _ rfl rfl
    rfl
  · rintro s _ rfl
    exact h.refl s

theorem handleRegister_dispatches (h : KeptByLooking env rel) (tokens : List CString) :
    Dispatches env rel (handleRegister env tokens) := by
  by_cases hwrite : matchRegisterOption tokens[0]? = .WRITE_REGISTER
  · apply Dispatches.bind h (rejectIf_keeps h.refl _ _)
    intro _
    rw [hwrite]
    apply writeAttempt_dispatches h
    apply EndsIn.after h (rejectIf_keeps Eq.refl _ _)
    intro _
    apply EndsIn.after h (registerArg_keeps Eq.refl (fun _ _ _ => Eq.trans) env _ 10 _)
    intro reg
    apply EndsIn.after h (rejectIf_keeps Eq.refl _ _)
    intro _
    apply EndsIn.after h (rejectIf_keeps Eq.refl _ _)
    intro _
    apply EndsIn.after h (strtoll_keeps Eq.refl 10 _)
    rintro ⟨value, rest⟩
    apply EndsIn.after h (rejectIf_keeps Eq.refl _ _)
    intro _
    cases getRegister reg with
    | none =>
        apply EndsIn.of_keeps
        exact h.handler (keeps_call h.getRegs.attempt) fun _ => h.refl
    | some reg => exact fun s => .inr ⟨s, (reg, value), rfl, call_then_pure _ s⟩
  · exact .of_keeps (handleRegister_keeps h hwrite)

theorem handleStep_dispatches (h : KeptByLooking env rel) (tokens : List CString) :
    Dispatches env rel (handleStep env tokens) := by
  apply Dispatches.bind h (rejectIf_keeps h.refl _ _)
  intro _
  apply Dispatches.bind h (strtoll_keeps h.refl 10 _)
  rintro ⟨times, rest⟩
  apply Dispatches.bind h (rejectIf_keeps h.refl _ _)
  exact fun _ => .command h (.step times)

-- Each line of tokens is looked up, or is one command of the step relation.
theorem handleTokens_dispatches (h : KeptByLooking env rel) (hparts : OnlyLooks rel var backtrace)
    (cmnd : COMMAND) (tokens : List CString) :
    Dispatches env rel (handleTokens env var backtrace cmnd tokens) := by
  cases cmnd with
  | CONTINUE => exact .command h .cont
  | FINISH => exact .command h .finish
  | NEXT => exact .command h .next
  | BREAKPOINT => exact handleBreakpoint_dispatches h tokens
  | REG => exact handleRegister_dispatches h tokens
  | STEP => exact handleStep_dispatches h tokens
  | WHERE => exact .of_keeps (handleWhere_keeps h tokens)
  | BACKTRACE => exact .of_keeps (keeps_call hparts.backtrace)
  | VAR => exact .of_keeps (handleVar_keeps h hparts tokens)
  | PEEK_DATA => exact .of_keeps (handlePeek_keeps h tokens)
  | EXIT | INVALID_CMD => exact .of_keeps h.refl

end Handlers

section Loop

variable {σ : Type} {handle : Handler σ} {prompt : Session σ} {inv last : σ → Prop}

-- What a command keeps at the prompt, and what holds of the debugger that it ends the loop with.
structure Handler.Keeps (handle : Handler σ) (inv last : σ → Prop) : Prop where
  leave : ∀ s, inv s → last s
  handled : ∀ s cmnd tokens, inv s → last (handle s cmnd tokens).2
  again : ∀ s cmnd tokens, inv s → (handle s cmnd tokens).1 ≠ Errors.DEBUGEE_EXITED.code →
    inv (handle s cmnd tokens).2

theorem Session.command_keeps (h : handle.Keeps inv last) (hs : inv prompt.dbg)
    (command : List CString) :
    match prompt.command handle command with
    | (false, next) => inv next.dbg
    | (true, next) => last next.dbg := by
  unfold Session.command
  dsimp only
  split_ifs with hexit
  · exact h.leave _ hs
  · have hagain := h.again prompt.dbg (matchCommand command.head?) command.tail hs
    have hlast := h.handled prompt.dbg (matchCommand command.head?) command.tail hs
    rcases hrun : handle prompt.dbg (matchCommand command.head?) command.tail with ⟨res, t⟩
    rw [hrun] at hagain hlast
    dsimp only
    by_cases hgone : res = Errors.DEBUGEE_EXITED.code
    · rw [decide_eq_true hgone]
      exact hlast
    · rw [decide_eq_false hgone]
      exact hagain hgone

theorem parseLine_keeps (h : handle.Keeps inv last) (buffer : Buffer) (prompt : Session σ)
    (line : CString) (hs : inv prompt.dbg) :
    match parseLine handle buffer prompt line with
    | (false, _, next) => inv next.dbg
    | (true, _, next) => last next.dbg := by
  fun_induction parseLine handle buffer prompt line with
  | case1 buffer prompt line parsed hend => exact hs
  | case2 buffer prompt line parsed hmore hfull ih => exact ih hs
  | case3 buffer prompt line parsed hmore hready next hnext =>
      have hcommand := Session.command_keeps h hs (tokens parsed.2.1)
      rw [hnext] at hcommand
      exact hcommand
  | case4 buffer prompt line parsed hmore hready next hnext ih =>
      have hcommand := Session.command_keeps h hs (tokens parsed.2.1)
      rw [hnext] at hcommand
      exact ih hcommand

theorem pollLoop_keeps (h : handle.Keeps inv last) (buffer : Buffer) (lines : List CString)
    (hs : inv prompt.dbg) : last (pollLoop handle buffer prompt lines).dbg := by
  induction lines generalizing buffer prompt with
  | nil => exact h.leave _ hs
  | cons line lines ih =>
      have hline := parseLine_keeps h buffer prompt line hs
      unfold pollLoop
      rcases hrun : parseLine handle buffer prompt line with ⟨_ | _, after, next⟩ <;>
        rw [hrun] at hline
      · exact ih after hline
      · exact hline

end Loop

section Prompt

variable {start s : Debugger κ} {allowed : Debugger κ → Command → Prop}

-- `handle_command` as the loop sees it. A command that does not come back, or that passes a
-- null pointer on, is the last one, as it is where the debugee is gone.
def promptHandler (env : Env κ) (var : VarEnv κ) (backtrace : DebuggerM κ Unit) :
    Handler (Debugger κ) := fun dbg cmnd tokens =>
  match (handleTokens env var backtrace cmnd tokens).run dbg with
  | (.ok (some ()), t) => (0, t)
  | (.ok none, t) => (Errors.DEBUGEE_EXITED.code, t)
  | (.error code, t) => (code, t)
  | (.pending, t) => (Errors.DEBUGEE_EXITED.code, t)

theorem promptHandler_state (cmnd : COMMAND) (tokens : List CString) :
    (promptHandler env var backtrace s cmnd tokens).2 =
      ((handleTokens env var backtrace cmnd tokens).run s).2 := by
  unfold promptHandler
  rcases (handleTokens env var backtrace cmnd tokens).run s with ⟨(_ | _) | _ | _, t⟩ <;> rfl

-- A command after which the loop goes on is a step of the session.
theorem SessionFrom.prompt (h : SessionFrom env allowed start s)
    (hparts : OnlyLooks LooksUp var backtrace) (cmnd : COMMAND) (tokens : List CString)
    (hallowed : ∀ mid command, LooksUp s mid → allowed mid command)
    (halive : (promptHandler env var backtrace s cmnd tokens).1 ≠ Errors.DEBUGEE_EXITED.code) :
    SessionFrom env allowed start (promptHandler env var backtrace s cmnd tokens).2 := by
  rw [promptHandler_state]
  rcases handleTokens_dispatches (looksUp_kept env) hparts cmnd tokens s with
    hlook | ⟨mid, command, hmid, heq⟩
  · exact h.looked hlook
  · unfold promptHandler at halive
    rw [heq, run_call] at halive ⊢
    rcases hrun : handleCommand env command mid with ⟨_ | code | _, t⟩ <;> rw [hrun] at halive
    · exact (h.looked hmid).ran command (hallowed mid command hmid) hrun (by simp) (by simp)
    · refine (h.looked hmid).ran command (hallowed mid command hmid) hrun (by simp) ?_
      exact fun he => halive (Outcome.error.inj he)
    · exact absurd rfl halive

-- The debugger behind the loop: it is at a prompt, or the command that it was last given
-- has ended the loop.
def LeftLoop (env : Env κ) (var : VarEnv κ) (backtrace : DebuggerM κ Unit)
    (start t : Debugger κ) : Prop :=
  SessionFrom env (fun _ _ => True) start t ∨
    ∃ mid cmnd tokens, SessionFrom env (fun _ _ => True) start mid ∧
      promptHandler env var backtrace mid cmnd tokens = (Errors.DEBUGEE_EXITED.code, t)

theorem promptHandler_session (hparts : OnlyLooks LooksUp var backtrace) :
    (promptHandler env var backtrace).Keeps (SessionFrom env (fun _ _ => True) start)
      (LeftLoop env var backtrace start) where
  leave _ hs := .inl hs
  handled s cmnd tokens hs := by
    by_cases hgone : (promptHandler env var backtrace s cmnd tokens).1 = Errors.DEBUGEE_EXITED.code
    · exact .inr ⟨s, cmnd, tokens, hs, Prod.ext hgone rfl⟩
    · exact .inl (hs.prompt hparts cmnd tokens (fun _ _ _ => trivial) hgone)
  again _ cmnd tokens hs halive := hs.prompt hparts cmnd tokens (fun _ _ _ => trivial) halive

-- Whatever lines are typed, the debugger goes through a session of the step relation.
theorem pollLoop_session (hparts : OnlyLooks LooksUp var backtrace) (buffer : Buffer)
    (prompt : Session (Debugger κ)) (lines : List CString)
    (h : SessionFrom env (fun _ _ => True) start prompt.dbg) :
    LeftLoop env var backtrace start
      (pollLoop (promptHandler env var backtrace) buffer prompt lines).dbg :=
  pollLoop_keeps (promptHandler_session hparts) buffer lines h

end Prompt

end VDebugger
