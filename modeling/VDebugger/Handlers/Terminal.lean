import VDebugger.Handlers.Mappings
import VDebugger.Handlers.WriteRead

namespace VDebugger

open Machine HandlerM

variable {κ : Type} {env : Env κ} {s t u : Debugger κ}

section Output

-- `"Program Counter: %llx Offset: %llx\n"`
def whereAddrLine (pc offset : CString) : CString :=
  "Program Counter: ".toList ++ pc ++ " Offset: ".toList ++ offset ++ ['\n']

def whereFuncLine (funcName : CString) : CString :=
  "Current function: ".toList ++ funcName ++ ['\n']

def whereLineLine (lineNo : UWORD) : CString :=
  "Current line: ".toList ++ formatSigned lineNo ++ ['\n']

-- `handle_where` with what it writes where it succeeds.
def handleWhereShown (env : Env κ) (tokens : List CString) : HandlerM κ CString := do
  let arg := tokens[0]?
  rejectIf (arg = none) 1
  let mode ← matchWhereOption arg
  let pc ← call (getRegValue env .rip)
  match mode with
  | .WHERE_ARG_ADDR => do
      let s ← call Action.fetch
      pure (whereAddrLine (formatHex pc) (formatHex (pc - s.loadAddress)))
  | .WHERE_ARG_FUNC => do
      let funcName ← call (getSubprogName pc)
      pure (whereFuncLine funcName)
  | .WHERE_ARG_LINE => do
      let s ← call Action.fetch
      let (res, dwarfDbg) := getLineNoFromAddr (pc - s.loadAddress) s.dwarfDbg
      call (Action.change fun s => { s with dwarfDbg })
      match res with
      | .ok lineNo => pure (whereLineLine lineNo)
      | .noEntry | .error => reject 1
  | .INVALID_WHERE_OPT => reject 1

theorem handleWhere_hides (env : Env κ) (tokens : List CString) :
    Hides (handleWhere env tokens) (handleWhereShown env tokens) := by
  apply Hides.bind
  intro _
  apply Hides.bind
  intro mode
  apply Hides.bind
  intro pc
  cases mode with
  | WHERE_ARG_ADDR => exact fun _ => rfl
  | WHERE_ARG_FUNC => exact Hides.bind fun _ _ => rfl
  | WHERE_ARG_LINE =>
      apply Hides.bind
      intro s
      dsimp only
      generalize getLineNoFromAddr (pc - s.loadAddress) s.dwarfDbg = found
      apply Hides.bind
      intro _
      cases found.1 <;> exact fun _ => rfl
  | INVALID_WHERE_OPT => exact fun _ => rfl

end Output

section Addresses

-- The address that a printed number stands for when it is typed.
def typedAddr (data : UWORD) : UWORD := BitVec.ofInt 64 (min (data.toNat : Int) (2 ^ 63 - 1))

theorem typedAddr_eq_iff (data : UWORD) : typedAddr data = data ↔ data.toNat < 2 ^ 63 := by
  unfold typedAddr
  constructor
  · intro h
    have hnat := congrArg BitVec.toNat h
    rw [BitVec.toNat_ofInt] at hnat
    omega
  · intro h
    apply BitVec.eq_of_toNat_eq
    rw [BitVec.toNat_ofInt]
    omega

-- The first request that `break enable` makes has the address in it.
theorem handleBreakpointAt_asks (env : Env κ) (a : WORD) (s : Debugger κ) :
    ∃ more granted, (handleBreakpointAt env .ENABLE_BREAKPOINT a s).2.log =
      more ++ (.peekData a, granted) :: s.log := by
  have hfind (bp : Breakpoint) (hbp : bp.memAddr = a) : ∃ more granted,
      (((enableBreakpoint env bp).orFail 1 >>= saveBreakpoint) s).2.log =
        more ++ (.peekData a, granted) :: s.log := by
    cases hfault : env.fault s.log.length with
    | true =>
        have hpeek := ptracePeekData_of_refused hfault bp.memAddr
        have henable : enableBreakpoint env bp s = _ := Action.bind_of_error hpeek _
        rw [Action.bind_of_error (Action.orFail_of_error henable 1), ← hbp]
        exact ⟨[], false, rfl⟩
    | false =>
        have hpeek := ptracePeekData_of_granted hfault bp.memAddr
        cases hpoke : env.fault (s.log.length + 1) with
        | true =>
            have henable : enableBreakpoint env bp s = _ := (Action.bind_of_ok hpeek _).trans
              (Action.bind_of_error (ptracePokeData_of_refused hpoke _ _ _) _)
            rw [Action.bind_of_error (Action.orFail_of_error henable 1), ← hbp]
            exact ⟨[_], true, rfl⟩
        | false =>
            have henable : enableBreakpoint env bp s = _ := (Action.bind_of_ok hpeek _).trans
              (Action.bind_of_ok (ptracePokeData_of_granted hpoke _ _ _) _)
            rw [Action.bind_of_ok (Action.orFail_eq_ok.mpr henable), ← hbp]
            exact ⟨[_], true, rfl⟩
  have hcall : handleBreakpointAt env .ENABLE_BREAKPOINT a s =
      ((enableBreakpoint env (s.breakpoints.lookup a)).orFail 1 >>= saveBreakpoint) s :=
    getBreakpointAtAddr_then env s a fun found =>
      (enableBreakpoint env found.2).orFail 1 >>= saveBreakpoint
  rw [hcall]
  exact hfind _ (Table.lookup_memAddr _ _)

theorem handleBreakpointAt_inj {a b : WORD}
    (h : (handleBreakpointAt env .ENABLE_BREAKPOINT a s).2 =
      (handleBreakpointAt env .ENABLE_BREAKPOINT b s).2) : a = b := by
  obtain ⟨more, granted, ha⟩ := handleBreakpointAt_asks env a s
  obtain ⟨more', granted', hb⟩ := handleBreakpointAt_asks env b s
  rw [h, hb] at ha
  have hlength := congrArg List.length ha
  simp only [List.length_append, List.length_cons] at hlength
  have hfirst := (List.append_inj ha (by omega)).2
  have hrequest := (Prod.mk.inj (List.cons.inj hfirst).1).1
  exact (Request.peekData.inj hrequest).symm

theorem breakpointArg_addr (env : Env κ) (data : UWORD) (tokens : List CString) (s : Debugger κ) :
    (breakpointArg env .BREAKPOINT_ARG_MEMADDR (formatHex data) tokens).run s =
      (.ok (some (typedAddr data)), s) := by
  unfold breakpointArg
  dsimp only
  rw [run_strtoll, parseNumber_formatHex]
  dsimp only
  rw [run_rejectIf_of_not (not_not_intro rfl)]
  rfl

theorem handleBreakpoint_addr {action mode : CString}
    (haction : matchBreakpointOption (some action) = .ENABLE_BREAKPOINT)
    (hmode : matchBreakpointOption (some mode) = .BREAKPOINT_ARG_MEMADDR)
    (env : Env κ) (data : UWORD) (s : Debugger κ) :
    (handleBreakpoint env [action, mode, formatHex data]).run s =
      (call (handleBreakpointAt env .ENABLE_BREAKPOINT (typedAddr data + s.loadAddress))).run s := by
  have hknown : ¬(matchBreakpointOption [action, mode, formatHex data][0]? =
        .INVALID_BREAKPOINT_OPT ∨
      matchBreakpointOption [action, mode, formatHex data][1]? = .INVALID_BREAKPOINT_OPT) := by
    rw [List.getElem?_cons_zero, List.getElem?_cons_succ, List.getElem?_cons_zero, haction, hmode]
    decide
  rw [handleBreakpoint]
  dsimp only
  rw [run_rejectIf_of_not hknown]
  simp only [List.getElem?_cons_zero, List.getElem?_cons_succ, haction, hmode]
  rw [run_bind_ok (breakpointArg_addr ..), run_bind_ok (run_call_ok (Action.fetch_apply s))]

theorem run_matchWhereOption (buffer : CString) (s : Debugger κ) :
    (matchWhereOption (some buffer)).run s =
      (.ok (some (if buffer = "func".toList then .WHERE_ARG_FUNC
        else if buffer = "line".toList then .WHERE_ARG_LINE
        else if buffer = "addr".toList then .WHERE_ARG_ADDR
        else .INVALID_WHERE_OPT)), s) := rfl

theorem matchWhereOption_addr (s : Debugger κ) :
    (matchWhereOption (some "addr".toList)).run s = (.ok (some .WHERE_ARG_ADDR), s) := by
  rw [run_matchWhereOption, if_neg (by decide), if_neg (by decide), if_pos rfl]

theorem handleWhereShown_addr (env : Env κ) (s : Debugger κ) :
    (handleWhereShown env ["addr".toList]).run s =
      if env.fault s.log.length then (.error Errors.PTRACE_ERROR.code, s.note .getRegs false)
      else (.ok (some (whereAddrLine (formatHex s.debugee.regs.rip)
        (formatHex (s.debugee.regs.rip - s.loadAddress)))), s.note .getRegs true) := by
  rw [handleWhereShown]
  refine (run_rejectIf_of_not (fun h => nomatch h) 1 _ s).trans ?_
  refine (run_bind_ok (matchWhereOption_addr s) _).trans ?_
  cases hfault : env.fault s.log.length with
  | true =>
      have hpc : getRegValue env .rip s = _ := Action.bind_of_error (getRegsStruct_of_refused hfault) _
      exact run_bind_error (run_call_error hpc) _
  | false =>
      have hpc : getRegValue env .rip s = _ := Action.bind_of_ok (getRegsStruct_of_granted hfault) _
      refine (run_bind_ok (run_call_ok hpc) _).trans ?_
      exact run_bind_ok (run_call_ok (Action.fetch_apply _)) _

-- The offset that `where addr` shows is the one that `break enable addr` finds the program
-- counter with, unless `strtoll` cuts it off at LLONG_MAX.
theorem break_where_shown_iff {text : CString}
    (h : (handleWhereShown env ["addr".toList]).run s = (.ok (some text), t)) :
    let pc := s.debugee.regs.rip
    let offset := formatHex (pc - s.loadAddress)
    text = whereAddrLine (formatHex pc) offset ∧
      ∀ (later : Env κ) (u : Debugger κ), u.loadAddress = t.loadAddress →
        ((handleBreakpoint later ["enable".toList, "addr".toList, offset]).run u =
            (call (handleBreakpointAt later .ENABLE_BREAKPOINT pc)).run u ↔
          (pc - s.loadAddress).toNat < 2 ^ 63) := by
  intro pc offset
  rw [handleWhereShown_addr] at h
  split at h
  · cases h
  · cases h
    refine ⟨rfl, fun later u hload => ?_⟩
    have hload : u.loadAddress = s.loadAddress := hload
    have hrun : (handleBreakpoint later ["enable".toList, "addr".toList, offset]).run u = _ :=
      handleBreakpoint_addr (by decide) (by decide) later (pc - s.loadAddress) u
    rw [hrun, hload]
    refine Iff.trans ?_ (typedAddr_eq_iff (pc - s.loadAddress))
    constructor
    · intro hsame
      have hstate := congrArg Prod.snd hsame
      rw [run_call_snd, run_call_snd] at hstate
      have hpc : typedAddr (pc - s.loadAddress) + s.loadAddress = pc :=
        handleBreakpointAt_inj hstate
      exact BitVec.eq_sub_iff_add_eq.mpr hpc
    · intro htyped
      rw [htyped, BitVec.sub_add_cancel]

theorem break_where_shown_nop :
    let s := { atPrompt (fun _ => 0x90) 0x2000 with loadAddress := 0x1000 }
    let offset := formatHex (0x2000 - 0x1000)
    (handleWhereShown nopEnv ["addr".toList]).run s =
        (.ok (some (whereAddrLine (formatHex 0x2000) offset)), s.note .getRegs true) ∧
      (handleBreakpoint nopEnv ["enable".toList, "addr".toList, offset]).run s =
        (call (handleBreakpointAt nopEnv .ENABLE_BREAKPOINT 0x2000)).run s := by
  intro s offset
  have hrun : (handleWhereShown nopEnv ["addr".toList]).run s =
      (.ok (some (whereAddrLine (formatHex 0x2000) offset)), s.note .getRegs true) :=
    handleWhereShown_addr nopEnv s
  exact ⟨hrun, ((break_where_shown_iff hrun).2 nopEnv s rfl).mpr (by decide)⟩

end Addresses

section Registers

variable {mode token : CString} {reg : REGISTER} {data : UWORD}

end Registers

end VDebugger
