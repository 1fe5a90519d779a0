import VDebugger.DwarfInfo.Units
import VDebugger.Handlers.Tokens
import VDebugger.Next.Lemmas

namespace VDebugger

open Machine HandlerM

variable {κ α β : Type} {env : Env κ} {var : VarEnv κ} {backtrace : DebuggerM κ Unit}
  {rel : Debugger κ → Debugger κ → Prop}

namespace HandlerM

variable {x : HandlerM κ α} {f : α → HandlerM κ β}

theorem keeps_call {y : DebuggerM κ α} (h : y.Keeps rel) : (call y).run.Keeps rel := by
  intro s
  have hs := h s
  rw [run_call]
  rcases hrun : y s with ⟨_ | _ | _, t⟩ <;> rwa [hrun] at hs

theorem keeps_bind (htrans : ∀ s t u, rel s t → rel t u → rel s u) (hx : x.run.Keeps rel)
    (hrefl : ∀ s, rel s s) (hf : ∀ a, (f a).run.Keeps rel) : (x >>= f).run.Keeps rel :=
  Action.Keeps.bind htrans hx fun found => match found with
    | some a => hf a
    | none => hrefl

end HandlerM

section Tokens

theorem strtoll_keeps (hrefl : ∀ s, rel s s) (base : Nat) (token : Option CString) :
    (strtoll base token : HandlerM κ (WORD × CString)).run.Keeps rel := by
  intro s
  cases token with
  | none => exact hrefl s
  | some characters => exact hrefl s

theorem rejectIf_keeps (hrefl : ∀ s, rel s s) (c : Prop) [Decidable c] (code : Int) :
    (rejectIf c code : HandlerM κ Unit).run.Keeps rel := keeps_call hrefl

theorem fetch_keeps (hrefl : ∀ s, rel s s) :
    (call Action.fetch : HandlerM κ (Debugger κ)).run.Keeps rel := hrefl

theorem registerArg_keeps (hrefl : ∀ s, rel s s)
    (htrans : ∀ s t u, rel s t → rel t u → rel s u) (env : Env κ) (mode : REGISTER_OPTIONS)
    (base : Nat) (arg : Option CString) : (registerArg env mode base arg).run.Keeps rel := by
  cases mode
  case REGISTER_ARG_ABBR =>
    intro s
    cases arg <;> exact hrefl s
  case REGISTER_ARG_DWARF =>
    apply keeps_bind htrans (strtoll_keeps hrefl base arg) hrefl
    rintro ⟨n, rest⟩
    exact keeps_bind htrans (rejectIf_keeps hrefl _ _) hrefl fun _ => hrefl
  all_goals exact keeps_bind htrans (fetch_keeps hrefl) hrefl fun _ => hrefl

end Tokens

section Searches

theorem getSubProgDieFromAddr_search (addrOffset : WORD) (dbg : DwarfDebug) :
    (getSubProgDieFromAddr addrOffset dbg).2 = CuLookup.run dbg (.fromAddr addrOffset) := by
  change _ = (getCuFromAddr addrOffset dbg).2
  unfold getSubProgDieFromAddr
  rcases getCuFromAddr addrOffset dbg with ⟨⟨_ | _ | _, _ | cu⟩, left⟩ <;> rfl

theorem getLineNoFromAddr_search (addrOffset : UWORD) (dbg : DwarfDebug) :
    (getLineNoFromAddr addrOffset dbg).2 = CuLookup.run dbg (.fromAddr addrOffset) := by
  change _ = (getCuFromAddr addrOffset dbg).2
  unfold getLineNoFromAddr
  rcases getCuFromAddr addrOffset dbg with ⟨⟨_ | _ | _, _ | cu⟩, left⟩
  case ok.some | noEntry.some =>
    dsimp only
    cases getLineIterator cu with
    | ok lineIterator =>
        dsimp only
        cases searchAddrInLines lineIterator addrOffset with
        | ok lineIndex =>
            dsimp only
            cases lineIterator.dwLines[lineIndex]? <;> rfl
        | noEntry | error => rfl
    | noEntry | error => rfl
  all_goals rfl

theorem getAddrFromSourceLine_search (undef : UWORD) (path : CString) (lineNum : UWORD)
    (dbg : DwarfDebug) : (getAddrFromSourceLine undef path lineNum dbg).2 =
      CuLookup.run dbg (.fromFileName path) := by
  change _ = (getCuFromFileName path dbg).2
  unfold getAddrFromSourceLine
  rcases getCuFromFileName path dbg with ⟨cu | _ | _, left⟩
  · dsimp only
    cases getLineIterator cu <;> rfl
  · rfl
  · rfl

end Searches

section Looking

-- A relation over all that only looks: it asks for the registers or a word of memory, or searches
-- the units, which moves the position among them.
structure KeptByLooking (env : Env κ) (rel : Debugger κ → Debugger κ → Prop) : Prop where
  refl : ∀ s, rel s s
  trans : ∀ s t u, rel s t → rel t u → rel s u
  getRegs : (getRegsStruct env).Keeps rel
  peekData : ∀ addr, (ptracePeekData env addr).Keeps rel
  search : ∀ (lookup : CuLookup) s, rel s { s with dwarfDbg := lookup.run s.dwarfDbg }

theorem KeptByLooking.bind (h : KeptByLooking env rel) {x : DebuggerM κ α} {f : α → DebuggerM κ β}
    (hx : x.Keeps rel) (hf : ∀ a, (f a).Keeps rel) : (x >>= f).Keeps rel :=
  Action.Keeps.bind h.trans hx hf

theorem KeptByLooking.handler (h : KeptByLooking env rel) {x : HandlerM κ α}
    {f : α → HandlerM κ β} (hx : x.run.Keeps rel) (hf : ∀ a, (f a).run.Keeps rel) :
    (x >>= f).run.Keeps rel := keeps_bind h.trans hx h.refl hf

theorem KeptByLooking.same (h : KeptByLooking env rel) {x : DebuggerM κ α}
    (hx : ∀ s, (x s).2 = s) : x.Keeps rel := by
  intro s
  rw [hx s]
  exact h.refl s

-- A lookup for the state that was just fetched, and what follows it.
theorem KeptByLooking.lookup (h : KeptByLooking env rel) {f : Debugger κ → HandlerM κ α}
    (lookup : Debugger κ → CuLookup)
    (hf : ∀ s, ∃ g : HandlerM κ α, g.run.Keeps rel ∧
      (f s).run s = g.run { s with dwarfDbg := (lookup s).run s.dwarfDbg }) :
    (call Action.fetch >>= f).run.Keeps rel := by
  intro s
  obtain ⟨g, hg, hrun⟩ := hf s
  rw [run_bind_ok (run_call_ok (Action.fetch_apply s)), hrun]
  exact h.trans _ _ _ (h.search (lookup s) s) (hg _)

theorem failIf_keeps (h : KeptByLooking env rel) (c : Prop) [Decidable c] (code : Int) :
    (Action.failIf c code : DebuggerM κ Unit).Keeps rel := by
  refine h.same fun s => ?_
  by_cases hc : c
  · rw [Action.failIf_of hc]
  · rw [Action.failIf_of_not hc]

theorem getRegValue_keeps (h : KeptByLooking env rel) (reg : REGISTER) :
    (getRegValue env reg).Keeps rel := h.bind h.getRegs fun _ => h.refl

theorem initLocInfo_keeps (h : KeptByLooking env rel) (var : VarEnv κ) (locInfo : LocInfo) :
    (initLocInfo env var locInfo).Keeps rel := by
  have hfetch : (Action.fetch : DebuggerM κ (Debugger κ)).Keeps rel := h.refl
  refine h.bind h.getRegs fun regs => h.bind hfetch fun s =>
    h.bind (failIf_keeps h _ _) fun _ => h.bind (failIf_keeps h _ _) fun _ => ?_
  split_ifs
  · exact h.refl
  · exact h.bind (failIf_keeps h _ _) fun _ => h.bind (failIf_keeps h _ _) fun _ => h.refl

theorem KeptByLooking.subProg (h : KeptByLooking env rel) (addr : WORD) (s : Debugger κ) :
    rel s { s with dwarfDbg := (getSubProgDieFromAddr (addr - s.loadAddress) s.dwarfDbg).2 } := by
  rw [getSubProgDieFromAddr_search]
  exact h.search _ s

theorem stoppedSubProg_keeps (h : KeptByLooking env rel) (var : VarEnv κ) :
    (stoppedSubProg env var).Keeps rel := by
  have hfetch : (Action.fetch : DebuggerM κ (Debugger κ)).Keeps rel := h.refl
  refine h.bind hfetch fun s => h.bind (initLocInfo_keeps h var _) fun locInfo =>
    h.bind (getRegValue_keeps h .rip) fun pc => ?_
  intro s
  have hsearch := h.subProg pc s
  rw [Action.bind_of_ok (Action.fetch_apply s)]
  generalize getSubProgDieFromAddr (pc - s.loadAddress) s.dwarfDbg = found at hsearch ⊢
  obtain ⟨⟨res, subProgDie⟩, dwarfDbg⟩ := found
  refine h.trans _ _ _ hsearch (h.bind (failIf_keeps h _ _) (fun _ => ?_) _)
  exact h.refl

theorem localScope_keeps (h : KeptByLooking env rel) (var : VarEnv κ) :
    (localScope env var).Keeps rel := by
  refine h.bind (stoppedSubProg_keeps h var) fun found => ?_
  obtain ⟨subProgDie, pc, locInfo⟩ := found
  refine h.bind (h.same fun _ => rfl) fun frameBase => ?_
  cases subProgDie <;> exact h.refl

theorem getSubprogName_keeps (h : KeptByLooking env rel) (addr : WORD) :
    (getSubprogName addr : DebuggerM κ CString).Keeps rel := by
  intro s
  have hsearch := h.subProg addr s
  unfold getSubprogName
  rw [Action.bind_of_ok (Action.fetch_apply s)]
  generalize getSubProgDieFromAddr (addr - s.loadAddress) s.dwarfDbg = found at hsearch ⊢
  obtain ⟨⟨res, subProgDie⟩, dwarfDbg⟩ := found
  refine h.trans _ _ _ hsearch ?_
  dsimp only
  rw [Action.bind_of_ok (Action.change_apply _ _)]
  cases res with
  | error => exact h.refl _
  | ok _ | noEntry =>
      cases subProgDie with
      | none => exact h.refl _
      | some die =>
          dsimp only
          cases die.attrs.name <;> exact h.refl _

theorem handleWhere_keeps (h : KeptByLooking env rel) (tokens : List CString) :
    (handleWhere env tokens).run.Keeps rel := by
  have hmode : (matchWhereOption tokens[0]? : HandlerM κ WHERE_OPTIONS).run.Keeps rel := by
    cases tokens[0]? <;> exact h.refl
  refine h.handler (rejectIf_keeps h.refl _ _) fun _ => h.handler hmode fun mode =>
    h.handler (keeps_call (getRegValue_keeps h .rip)) fun pc => ?_
  cases mode with
  | WHERE_ARG_FUNC =>
      exact h.handler (keeps_call (getSubprogName_keeps h pc)) fun _ => h.refl
  | WHERE_ARG_LINE =>
      refine h.lookup (fun s => .fromAddr (pc - s.loadAddress)) fun s => ?_
      rw [← getLineNoFromAddr_search]
      generalize getLineNoFromAddr (pc - s.loadAddress) s.dwarfDbg = found
      obtain ⟨res, dwarfDbg⟩ := found
      cases res with
      | ok lineNo => exact ⟨pure (), h.refl, rfl⟩
      | noEntry | error => exact ⟨reject 1, h.refl, rfl⟩
  | WHERE_ARG_ADDR => exact h.refl
  | INVALID_WHERE_OPT => exact h.refl

theorem handlePeek_keeps (h : KeptByLooking env rel) (tokens : List CString) :
    (handlePeek env tokens).run.Keeps rel := by
  refine h.handler (rejectIf_keeps h.refl _ _) fun _ => h.handler (strtoll_keeps h.refl 16 _) ?_
  rintro ⟨addr, rest⟩
  exact h.handler (rejectIf_keeps h.refl _ _) fun _ =>
    h.handler (keeps_call ((h.peekData addr).orFail 1)) fun _ => h.refl

theorem breakpointArg_keeps (h : KeptByLooking env rel) (mode : BREAKPOINT_OPTIONS)
    (argToken : CString) (tokens : List CString) :
    (breakpointArg env mode argToken tokens).run.Keeps rel := by
  cases mode with
  | BREAKPOINT_ARG_MEMADDR =>
      refine h.handler (strtoll_keeps h.refl 16 _) ?_
      rintro ⟨arg, argEnd⟩
      exact h.handler (rejectIf_keeps h.refl _ _) fun _ => h.refl
  | BREAKPOINT_ARG_LINENUM =>
      refine h.handler (strtoll_keeps h.refl 10 _) ?_
      rintro ⟨arg, argEnd⟩
      refine h.handler (rejectIf_keeps h.refl _ _) fun _ =>
        h.lookup (fun _ => .fromFileName argToken) fun s => ?_
      dsimp only
      rw [← getAddrFromSourceLine_search (env.undef s.log.length) argToken arg]
      generalize getAddrFromSourceLine (env.undef s.log.length) argToken arg s.dwarfDbg = found
      obtain ⟨res, dwarfDbg⟩ := found
      cases res with
      | ok addr => exact ⟨pure addr, h.refl, rfl⟩
      | noEntry | error => exact ⟨reject 1, h.refl, rfl⟩
  | ENABLE_BREAKPOINT | DISABLE_BREAKPOINT | INVALID_BREAKPOINT_OPT => exact h.refl

theorem handleRegister_keeps (h : KeptByLooking env rel) {tokens : List CString}
    (hread : matchRegisterOption tokens[0]? ≠ .WRITE_REGISTER) :
    (handleRegister env tokens).run.Keeps rel := by
  unfold handleRegister
  refine h.handler (rejectIf_keeps h.refl _ _) fun _ => h.handler (keeps_call h.getRegs) fun _ => ?_
  cases haction : matchRegisterOption tokens[0]?
  case WRITE_REGISTER => exact absurd haction hread
  case READ_REGISTER =>
    dsimp only
    split
    · exact rejectIf_keeps h.refl _ _
    · exact h.handler (rejectIf_keeps h.refl _ _) fun _ =>
        h.handler (registerArg_keeps h.refl h.trans env _ 16 _) fun reg =>
          h.handler (rejectIf_keeps h.refl _ _) fun _ => rejectIf_keeps h.refl _ _
  all_goals exact h.refl

-- The parts of `var` and `backtrace` that are not in the handlers only look.
structure OnlyLooks (rel : Debugger κ → Debugger κ → Prop) (var : VarEnv κ)
    (backtrace : DebuggerM κ Unit) : Prop where
  backtrace : backtrace.Keeps rel
  handleParamVar : ∀ mode, (var.handleParamVar mode).Keeps rel
  sprintVariableDieVal : ∀ die addr, (var.sprintVariableDieVal die addr).Keeps rel

theorem handleGetLocalVar_keeps (h : KeptByLooking env rel) (hparts : OnlyLooks rel var backtrace)
    (varName : Option CString) : (handleGetLocalVar env var varName).run.Keeps rel := by
  refine h.handler (keeps_call (localScope_keeps h var)) ?_
  rintro ⟨die, pc, locInfo⟩
  dsimp only
  rcases getLocalVarFromName var.undefName varName pc die with _ | ⟨_ | _ | _, _ | varDie⟩
  case some.ok.some =>
    have haddr : (varLocation var locInfo (some varDie) .DW_AT_location).Keeps rel :=
      h.same fun _ => rfl
    exact h.handler (rejectIf_keeps h.refl _ _) fun _ => h.handler (keeps_call haddr) fun addr =>
      keeps_call (hparts.sprintVariableDieVal varDie addr)
  all_goals exact h.refl

theorem handleVar_keeps (h : KeptByLooking env rel) (hparts : OnlyLooks rel var backtrace)
    (tokens : List CString) : (handleVar env var tokens).run.Keeps rel := by
  have hoption (token : Option CString) :
      (matchVarOption token : HandlerM κ VAR_OPTIONS).run.Keeps rel := by
    cases token <;> exact h.refl
  refine h.handler (rejectIf_keeps h.refl _ _) fun _ => h.handler (hoption _) fun mode =>
    h.handler (rejectIf_keeps h.refl _ _) fun _ => h.handler (rejectIf_keeps h.refl _ _)
      fun _ => h.handler (hoption _) fun op => ?_
  cases op
  case PARAM_VAR_OPTION => exact keeps_call (hparts.handleParamVar mode)
  case LOCAL_VAR_OPTION => exact handleGetLocalVar_keeps h hparts _
  all_goals exact h.refl

end Looking

section LooksUp

theorem ptracePeekData_looksUp (env : Env κ) (addr : UWORD) :
    (ptracePeekData env addr).Keeps LooksUp := by
  intro s
  rcases ptracePeekData_cases env s addr with ⟨log, h⟩ | ⟨_, log, h⟩
  · rw [h]
    exact ⟨rfl, rfl, rfl, rfl⟩
  · rw [h]
    exact ⟨rfl, rfl, rfl, rfl⟩

theorem looksUp_kept (env : Env κ) : KeptByLooking env LooksUp where
  refl := LooksUp.refl
  trans := LooksUp.trans
  getRegs := getRegsStruct_looksUp env
  peekData := ptracePeekData_looksUp env
  search _ _ := ⟨rfl, rfl, rfl, rfl⟩

end LooksUp

end VDebugger
