import VDebugger.Var

namespace VDebugger

open Machine HandlerM

variable {κ α β : Type} {env : Env κ}

namespace HandlerM

variable {x : HandlerM κ α} {f : α → HandlerM κ β}

theorem run_bind_apply (x : HandlerM κ α) (f : α → HandlerM κ β) (s : Debugger κ) :
    (x >>= f).run s = match x.run s with
      | (.ok (some a), t) => (f a).run t
      | (.ok none, t) => (.ok none, t)
      | (.error code, t) => (.error code, t)
      | (.pending, t) => (.pending, t) := by
  have hbind : (x >>= f).run s = (x.run >>= fun found => match found with
      | some a => (f a).run
      | none => pure none : DebuggerM κ (Option β)) s := rfl
  rw [hbind, Action.bind_apply]
  rcases x.run s with ⟨(_ | a) | _ | _, t⟩ <;> rfl

theorem run_call (y : DebuggerM κ α) (s : Debugger κ) :
    (call y).run s = match y s with
      | (.ok a, t) => (.ok (some a), t)
      | (.error code, t) => (.error code, t)
      | (.pending, t) => (.pending, t) := by
  have hcall : (call y).run s = (y >>= fun a => pure (some a) : DebuggerM κ (Option α)) s := rfl
  rw [hcall, Action.bind_apply]
  rcases y s with ⟨_ | _ | _, t⟩ <;> rfl

theorem run_bind_ok {a : α} {s t : Debugger κ} (h : x.run s = (.ok (some a), t))
    (f : α → HandlerM κ β) : (x >>= f).run s = (f a).run t := by
  rw [run_bind_apply, h]

theorem run_bind_error {code : Int} {s t : Debugger κ} (h : x.run s = (.error code, t))
    (f : α → HandlerM κ β) : (x >>= f).run s = (.error code, t) := by
  rw [run_bind_apply, h]

theorem run_call_ok {y : DebuggerM κ α} {a : α} {s t : Debugger κ} (h : y s = (.ok a, t)) :
    (call y).run s = (.ok (some a), t) := by
  rw [run_call, h]

theorem run_call_error {y : DebuggerM κ α} {code : Int} {s t : Debugger κ}
    (h : y s = (.error code, t)) : (call y : HandlerM κ α).run s = (.error code, t) := by
  rw [run_call, h]

theorem run_call_snd (y : DebuggerM κ α) (s : Debugger κ) : ((call y).run s).2 = (y s).2 := by
  rw [run_call]
  rcases y s with ⟨_ | _ | _, t⟩ <;> rfl

theorem run_rejectIf_of {c : Prop} [Decidable c] (hc : c) (code : Int) (g : Unit → HandlerM κ β)
    (s : Debugger κ) : (rejectIf c code >>= g).run s = (.error code, s) := by
  rw [run_bind_apply, rejectIf, run_call, Action.failIf_of hc]

theorem run_rejectIf_of_not {c : Prop} [Decidable c] (hc : ¬c) (code : Int)
    (g : Unit → HandlerM κ β) (s : Debugger κ) :
    (rejectIf c code >>= g).run s = (g ()).run s := by
  rw [run_bind_apply, rejectIf, run_call, Action.failIf_of_not hc]

theorem run_strtoll (base : Nat) (chars : CString) (f : WORD × CString → HandlerM κ β)
    (s : Debugger κ) : (strtoll base (some chars) >>= f).run s =
      (f (BitVec.ofInt 64 (parseNumber base chars).1, (parseNumber base chars).2)).run s := rfl

-- No null pointer is passed on.
def NoNull (x : HandlerM κ α) : Prop := ∀ s, (x.run s).1 ≠ .ok none

-- The handler returns a nonzero result.
def Rejects (x : HandlerM κ α) : Prop := ∀ s, ∃ code, code ≠ 0 ∧ (x.run s).1 = .error code

-- The handler comes to its end, and what it returns where it fails is nonzero.
def Settles (x : HandlerM κ α) : Prop :=
  ∀ s, (∃ a, (x.run s).1 = .ok (some a)) ∨ ∃ code, code ≠ 0 ∧ (x.run s).1 = .error code

theorem Rejects.noNull (h : Rejects x) : NoNull x := by
  intro s hnull
  obtain ⟨code, -, hcode⟩ := h s
  rw [hcode] at hnull
  exact nomatch hnull

theorem NoNull.pure (a : α) : NoNull (Pure.pure a : HandlerM κ α) := fun _ h => nomatch h

theorem NoNull.call (y : DebuggerM κ α) : NoNull (call y) := by
  intro s
  rw [run_call]
  rcases y s with ⟨_ | _ | _, t⟩ <;> exact fun h => nomatch h

theorem NoNull.bind (hx : NoNull x) (hf : ∀ a, NoNull (f a)) : NoNull (x >>= f) := by
  intro s
  have hs := hx s
  rw [run_bind_apply]
  rcases hrun : x.run s with ⟨(_ | a) | _ | _, t⟩
  · rw [hrun] at hs
    exact absurd rfl hs
  · exact hf a t
  · exact fun h => nomatch h
  · exact fun h => nomatch h

theorem NoNull.rejectIf {c : Prop} [Decidable c] {code : Int} {g : Unit → HandlerM κ β}
    (hg : ¬c → NoNull (g ())) : NoNull (rejectIf c code >>= g) := by
  intro s
  by_cases hc : c
  · rw [run_rejectIf_of hc]
    exact fun h => nomatch h
  · rw [run_rejectIf_of_not hc]
    exact hg hc s

theorem NoNull.strtoll (base : Nat) {token : Option CString} (h : token ≠ none) :
    NoNull (strtoll base token : HandlerM κ (WORD × CString)) := by
  obtain ⟨characters, rfl⟩ := Option.ne_none_iff_exists'.mp h
  exact NoNull.bind (fun _ heq => nomatch heq) fun s => NoNull.pure _

theorem Rejects.reject {code : Int} (h : code ≠ 0) : Rejects (reject code : HandlerM κ α) :=
  fun _ => ⟨code, h, rfl⟩

theorem Rejects.rejectIf {c : Prop} [Decidable c] (hc : c) {code : Int} (h : code ≠ 0)
    {g : Unit → HandlerM κ β} : Rejects (rejectIf c code >>= g) := by
  intro s
  exact ⟨code, h, by rw [run_rejectIf_of hc]⟩

-- Where the rest is not reached, the check itself rejects.
theorem Rejects.unless {c : Prop} [Decidable c] {code : Int} (h : code ≠ 0)
    {g : Unit → HandlerM κ β} (hg : ¬c → Rejects (g ())) : Rejects (HandlerM.rejectIf c code >>= g) := by
  by_cases hc : c
  · exact Rejects.rejectIf hc h
  · intro s
    rw [run_rejectIf_of_not hc]
    exact hg hc s

theorem Settles.pure (a : α) : Settles (Pure.pure a : HandlerM κ α) := fun _ => .inl ⟨a, rfl⟩

theorem Settles.strtoll (base : Nat) {token : Option CString} (h : token ≠ none) :
    Settles (strtoll base token : HandlerM κ (WORD × CString)) := by
  obtain ⟨characters, rfl⟩ := Option.ne_none_iff_exists'.mp h
  exact fun s => .inl ⟨_, rfl⟩

theorem Settles.call {y : DebuggerM κ α} (hreturns : ∀ s, (y s).1 ≠ .pending)
    (hcodes : y.NonzeroCodes) : Settles (call y) := by
  intro s
  have hs := hreturns s
  have hcode := hcodes s
  rw [run_call]
  rcases hrun : y s with ⟨a | code | _, t⟩ <;> rw [hrun] at hs hcode
  · exact .inl ⟨a, rfl⟩
  · exact .inr ⟨code, hcode code rfl, rfl⟩
  · exact absurd rfl hs

theorem Settles.bind (hx : Settles x) (hf : ∀ a, Settles (f a)) : Settles (x >>= f) := by
  intro s
  have hs := hx s
  rw [run_bind_apply]
  rcases hrun : x.run s with ⟨(_ | a) | code | _, t⟩ <;> rw [hrun] at hs
  · rcases hs with ⟨_, h⟩ | ⟨_, _, h⟩ <;> exact nomatch h
  · exact hf a t
  · rcases hs with ⟨_, h⟩ | ⟨found, hfound, h⟩
    · exact nomatch h
    · cases h
      exact .inr ⟨code, hfound, rfl⟩
  · rcases hs with ⟨_, h⟩ | ⟨_, _, h⟩ <;> exact nomatch h

theorem Settles.rejectIf (c : Prop) [Decidable c] {code : Int} (h : code ≠ 0) :
    Settles (rejectIf c code : HandlerM κ Unit) :=
  Settles.call (fun s => by by_cases hc : c <;> simp [Action.failIf, hc]) (.failIf h)

theorem Rejects.bind (hx : Settles x) (hf : ∀ a, Rejects (f a)) : Rejects (x >>= f) := by
  intro s
  have hs := hx s
  rw [run_bind_apply]
  rcases hrun : x.run s with ⟨(_ | a) | code | _, t⟩ <;> rw [hrun] at hs
  · rcases hs with ⟨_, h⟩ | ⟨_, _, h⟩ <;> exact nomatch h
  · exact hf a t
  · rcases hs with ⟨_, h⟩ | ⟨found, hfound, h⟩
    · exact nomatch h
    · cases h
      exact ⟨code, hfound, rfl⟩
  · rcases hs with ⟨_, h⟩ | ⟨_, _, h⟩ <;> exact nomatch h

end HandlerM

theorem matchWhereOption_noNull {token : Option CString} (h : token ≠ none) :
    NoNull (matchWhereOption token : HandlerM κ WHERE_OPTIONS) := by
  obtain ⟨characters, rfl⟩ := Option.ne_none_iff_exists'.mp h
  exact NoNull.bind (fun _ heq => nomatch heq) fun s => NoNull.pure _

theorem registerArg_noNull (env : Env κ) (mode : REGISTER_OPTIONS) (base : Nat)
    {arg : Option CString} (h : arg ≠ none) : NoNull (registerArg env mode base arg) := by
  cases mode
  case REGISTER_ARG_ABBR =>
    obtain ⟨characters, rfl⟩ := Option.ne_none_iff_exists'.mp h
    exact NoNull.bind (fun _ heq => nomatch heq) fun s => NoNull.pure _
  case REGISTER_ARG_DWARF =>
    exact NoNull.bind (NoNull.strtoll base h) fun _ => NoNull.rejectIf fun _ => NoNull.pure _
  all_goals exact NoNull.bind (NoNull.call _) fun _ => NoNull.pure _

theorem handleRegister_noNull (env : Env κ) (tokens : List CString) :
    NoNull (handleRegister env tokens) := by
  apply NoNull.rejectIf
  intro _
  apply NoNull.bind (NoNull.call _)
  intro _
  cases matchRegisterOption tokens[0]?
  case READ_REGISTER =>
    dsimp only
    split
    · exact NoNull.call _
    · apply NoNull.rejectIf
      intro harg
      apply NoNull.bind (registerArg_noNull env _ 16 harg)
      intro reg
      exact NoNull.rejectIf fun _ => NoNull.call _
  case WRITE_REGISTER =>
    apply NoNull.rejectIf
    intro harg
    apply NoNull.bind (registerArg_noNull env _ 10 harg)
    intro reg
    apply NoNull.rejectIf
    intro _
    apply NoNull.rejectIf
    intro hvalue
    apply NoNull.bind (NoNull.strtoll 10 hvalue)
    rintro ⟨value, rest⟩
    apply NoNull.rejectIf
    intro _
    cases getRegister reg with
    | none => exact NoNull.bind (NoNull.call _) fun _ => NoNull.pure _
    | some reg => exact NoNull.bind (NoNull.call _) fun _ => NoNull.pure _
  all_goals exact NoNull.call _

theorem handleStep_noNull (env : Env κ) (tokens : List CString) :
    NoNull (handleStep env tokens) := by
  apply NoNull.rejectIf
  intro harg
  apply NoNull.bind (NoNull.strtoll 10 harg)
  rintro ⟨times, rest⟩
  exact NoNull.rejectIf fun _ => NoNull.call _

theorem handleWhere_noNull (env : Env κ) (tokens : List CString) :
    NoNull (handleWhere env tokens) := by
  apply NoNull.rejectIf
  intro harg
  apply NoNull.bind (matchWhereOption_noNull harg)
  intro mode
  apply NoNull.bind (NoNull.call _)
  intro pc
  cases mode with
  | WHERE_ARG_ADDR => exact NoNull.pure ()
  | WHERE_ARG_FUNC => exact NoNull.bind (NoNull.call _) fun _ => NoNull.pure ()
  | WHERE_ARG_LINE =>
      apply NoNull.bind (NoNull.call _)
      intro s
      rcases getLineNoFromAddr (pc - s.loadAddress) s.dwarfDbg with ⟨res, dwarfDbg⟩
      apply NoNull.bind (NoNull.call _)
      intro _
      cases res with
      | ok line => exact NoNull.pure ()
      | noEntry => exact NoNull.call _
      | error => exact NoNull.call _
  | INVALID_WHERE_OPT => exact NoNull.call _

theorem handlePeek_noNull (env : Env κ) (tokens : List CString) :
    NoNull (handlePeek env tokens) := by
  apply NoNull.rejectIf
  intro harg
  apply NoNull.bind (NoNull.strtoll 16 harg)
  rintro ⟨addr, rest⟩
  exact NoNull.rejectIf fun _ => NoNull.bind (NoNull.call _) fun _ => NoNull.pure ()

-- `break line FILE` without a line number.
def BreakLineMissing (tokens : List CString) : Prop :=
  matchBreakpointOption tokens[0]? ≠ .INVALID_BREAKPOINT_OPT ∧
    matchBreakpointOption tokens[1]? = .BREAKPOINT_ARG_LINENUM ∧ tokens.length = 3

theorem breakpointArg_null {tokens : List CString} (h : tokens[3]? = none) (argToken : CString)
    (s : Debugger κ) :
    (breakpointArg env .BREAKPOINT_ARG_LINENUM argToken tokens).run s = (.ok none, s) := by
  unfold breakpointArg
  rw [h]
  rfl

theorem handleBreakpoint_null {tokens : List CString} (h : BreakLineMissing tokens)
    (s : Debugger κ) : (handleBreakpoint env tokens).run s = (.ok none, s) := by
  obtain ⟨haction, hmode, hlength⟩ := h
  have hvalid : ¬(matchBreakpointOption tokens[0]? = .INVALID_BREAKPOINT_OPT ∨
      matchBreakpointOption tokens[1]? = .INVALID_BREAKPOINT_OPT) := by
    rw [hmode]
    simpa using haction
  have hfile : tokens[2]? = some tokens[2] := List.getElem?_eq_getElem (by omega)
  have hline : tokens[3]? = none := List.getElem?_eq_none (by omega)
  unfold handleBreakpoint
  rw [run_rejectIf_of_not hvalid, hfile, hmode]
  dsimp only
  rw [run_bind_apply, breakpointArg_null hline]

theorem breakpointArg_noNull (env : Env κ) (mode : BREAKPOINT_OPTIONS) (argToken : CString)
    {tokens : List CString} (h : mode = .BREAKPOINT_ARG_LINENUM → tokens[3]? ≠ none) :
    NoNull (breakpointArg env mode argToken tokens) := by
  cases mode with
  | BREAKPOINT_ARG_MEMADDR =>
      apply NoNull.bind (NoNull.strtoll 16 (Option.some_ne_none argToken))
      rintro ⟨arg, argEnd⟩
      exact NoNull.rejectIf fun _ => NoNull.pure arg
  | BREAKPOINT_ARG_LINENUM =>
      apply NoNull.bind (NoNull.strtoll 10 (h rfl))
      rintro ⟨arg, argEnd⟩
      apply NoNull.rejectIf
      intro _
      apply NoNull.bind (NoNull.call _)
      intro s
      dsimp only
      generalize getAddrFromSourceLine (env.undef s.log.length) argToken arg s.dwarfDbg = found
      apply NoNull.bind (NoNull.call _)
      intro _
      cases found.1 with
      | ok addr => exact NoNull.pure addr
      | noEntry => exact NoNull.call _
      | error => exact NoNull.call _
  | ENABLE_BREAKPOINT => exact NoNull.call _
  | DISABLE_BREAKPOINT => exact NoNull.call _
  | INVALID_BREAKPOINT_OPT => exact NoNull.call _

theorem handleBreakpoint_noNull (env : Env κ) {tokens : List CString}
    (h : ¬BreakLineMissing tokens) : NoNull (handleBreakpoint env tokens) := by
  apply NoNull.rejectIf
  intro hvalid
  rw [not_or] at hvalid
  cases hfile : tokens[2]? with
  | none => exact NoNull.call _
  | some file =>
      have hlength := (List.getElem?_eq_some_iff.mp hfile).1
      have hline : matchBreakpointOption tokens[1]? = .BREAKPOINT_ARG_LINENUM →
          tokens[3]? ≠ none := by
        intro hmode hnone
        rw [List.getElem?_eq_none_iff] at hnone
        exact h ⟨hvalid.1, hmode, by omega⟩
      apply NoNull.bind (breakpointArg_noNull env _ file hline)
      intro arg
      apply NoNull.bind (NoNull.call _)
      intro s
      cases matchBreakpointOption tokens[0]?
      case ENABLE_BREAKPOINT => exact NoNull.call _
      case DISABLE_BREAKPOINT => exact NoNull.call _
      all_goals exact NoNull.bind (NoNull.call _) fun _ => NoNull.call _

-- How many tokens the handler of a command takes.
def requiredTokens (cmnd : COMMAND) (tokens : List CString) : Nat :=
  match cmnd with
  | .BREAKPOINT => if matchBreakpointOption tokens[1]? = .BREAKPOINT_ARG_LINENUM then 4 else 3
  | .REG =>
      match matchRegisterOption tokens[0]? with
      | .WRITE_REGISTER => 4
      | .READ_REGISTER => if matchRegisterOption tokens[1]? = .REGISTER_ARG_ALL then 2 else 3
      | _ => 2
  | .STEP | .WHERE | .PEEK_DATA => 1
  | .VAR => if tokens[1]? = some "local".toList then 3 else 2
  | _ => 0

theorem handleBreakpoint_short (env : Env κ) {tokens : List CString}
    (hshort : tokens.length < requiredTokens .BREAKPOINT tokens)
    (h : ¬BreakLineMissing tokens) : Rejects (handleBreakpoint env tokens) := by
  apply Rejects.unless (by decide)
  intro hvalid
  rw [not_or] at hvalid
  have hfile : tokens[2]? = none := by
    rw [List.getElem?_eq_none_iff]
    by_contra hlong
    by_cases hmode : matchBreakpointOption tokens[1]? = .BREAKPOINT_ARG_LINENUM
    · simp only [requiredTokens, if_pos hmode] at hshort
      exact h ⟨hvalid.1, hmode, by omega⟩
    · simp only [requiredTokens, if_neg hmode] at hshort
      omega
  rw [hfile]
  exact Rejects.reject (by decide)

theorem getRegsStruct_nonzeroCodes (env : Env κ) : (getRegsStruct env).NonzeroCodes := by
  intro s code h
  rcases getRegsStruct_cases env s with ⟨log, hrun⟩ | ⟨-, log, hrun⟩ <;> rw [hrun] at h
  · exact nomatch h
  · cases h
    decide

theorem getRegsStruct_settles (env : Env κ) : Settles (call (getRegsStruct env)) := by
  apply Settles.call _ (getRegsStruct_nonzeroCodes env)
  intro s h
  rcases getRegsStruct_cases env s with ⟨log, hrun⟩ | ⟨-, log, hrun⟩ <;> rw [hrun] at h
  · exact nomatch h
  · exact nomatch h

theorem registerArg_settles (env : Env κ) (mode : REGISTER_OPTIONS) (base : Nat)
    {arg : Option CString} (h : arg ≠ none) : Settles (registerArg env mode base arg) := by
  cases mode
  case REGISTER_ARG_ABBR =>
    obtain ⟨characters, rfl⟩ := Option.ne_none_iff_exists'.mp h
    exact Settles.pure _
  case REGISTER_ARG_DWARF =>
    apply Settles.bind (Settles.strtoll base h)
    rintro ⟨n, rest⟩
    exact Settles.bind (Settles.rejectIf _ (by decide)) fun _ => Settles.pure _
  all_goals exact fun s => .inl ⟨_, rfl⟩

theorem handleRegister_short (env : Env κ) {tokens : List CString}
    (hshort : tokens.length < requiredTokens .REG tokens) : Rejects (handleRegister env tokens) := by
  apply Rejects.unless (by decide)
  intro hvalid
  rw [not_or] at hvalid
  apply Rejects.bind (getRegsStruct_settles env)
  intro _
  simp only [requiredTokens] at hshort
  cases haction : matchRegisterOption tokens[0]? <;> rw [haction] at hshort
  case READ_REGISTER =>
    dsimp only at hshort ⊢
    split_ifs at hshort ⊢ with hmode
    · have hnone : tokens[1]? = none := List.getElem?_eq_none (by omega)
      rw [hnone] at hmode
      exact nomatch hmode
    · exact Rejects.rejectIf (List.getElem?_eq_none (by omega)) (by decide)
  case WRITE_REGISTER =>
    dsimp only at hshort
    apply Rejects.unless (by decide)
    intro harg
    apply Rejects.bind (registerArg_settles env _ 10 harg)
    intro reg
    apply Rejects.unless (by decide)
    intro _
    exact Rejects.rejectIf (List.getElem?_eq_none (by omega)) (by decide)
  all_goals exact Rejects.reject (by decide)

theorem handleStep_short (env : Env κ) {tokens : List CString} (h : tokens.length < 1) :
    Rejects (handleStep env tokens) :=
  Rejects.rejectIf (List.getElem?_eq_none (by omega)) (by decide)

theorem handleWhere_short (env : Env κ) {tokens : List CString} (h : tokens.length < 1) :
    Rejects (handleWhere env tokens) :=
  Rejects.rejectIf (List.getElem?_eq_none (by omega)) (by decide)

theorem handlePeek_short (env : Env κ) {tokens : List CString} (h : tokens.length < 1) :
    Rejects (handlePeek env tokens) :=
  Rejects.rejectIf (List.getElem?_eq_none (by omega)) (by decide)

end VDebugger
