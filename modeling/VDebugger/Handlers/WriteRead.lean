import VDebugger.Handlers.Named

namespace VDebugger

open Machine HandlerM

variable {κ : Type} {env : Env κ} {s t : Debugger κ} {mode token value : CString} {n : Int}

section Statement

def writeTokens (mode token value : CString) : List CString :=
  ["write".toList, mode, token, value]

def readTokens (mode token : CString) : List CString := ["read".toList, mode, token]

-- A `reg read` that is granted its request shows the value that `reg write` has returned 0 for,
-- and only the register that it reads has changed. A write that is refused a request, or does
-- not return 0, changes no register and returns a nonzero code.
structure WriteReadAgree (env : Env κ) (mode token value : CString) (n : Int) (s : Debugger κ) :
    Prop where
  agrees : ∀ t, (handleRegister env (writeTokens mode token value)).run s = (.ok (some ()), t) →
    ∀ readEnv : Env κ, readEnv.fault t.log.length = false →
      ∃ reg u, (handleRegisterShown readEnv (readTokens mode token)).run t
          = (.ok (some (.value (BitVec.ofInt 64 n))), u) ∧
        namedRegister 16 mode token = some reg ∧
        ∀ other, other ≠ reg → t.debugee.regs.get other = s.debugee.regs.get other
  fails : ∀ result t, (handleRegister env (writeTokens mode token value)).run s = (result, t) →
    ¬Granted env s t ∨ result ≠ .ok (some ()) →
      (∃ code, code ≠ 0 ∧ result = .error code) ∧ t.debugee.regs = s.debugee.regs

-- The three requests of a write, and the registers that the token names for the write and for
-- the read, which takes it for a hexadecimal number.
inductive AgreesOn (env : Env κ) (mode token : CString) (n : Int) (s : Debugger κ) : Prop where
  | rejected (hnone : namedRegister 10 mode token = none)
  | refused (hfault : env.fault s.log.length = true)
  | same {reg : REGISTER} (hget : env.fault (s.log.length + 1) = false)
      (hset : env.fault (s.log.length + 2) = false)
      (hwrite : namedRegister 10 mode token = some reg)
      (hread : namedRegister 16 mode token = some reg) (hvalue : n < 2 ^ 63)
  | other {written read : REGISTER} (hget : env.fault (s.log.length + 1) = false)
      (hset : env.fault (s.log.length + 2) = false)
      (hwrite : namedRegister 10 mode token = some written)
      (hread : namedRegister 16 mode token = some read) (hne : read ≠ written)
      (hholds : s.debugee.regs.get read = BitVec.ofInt 64 n)
      (hsame : s.debugee.regs.get written = BitVec.ofInt 64 (min n (2 ^ 63 - 1)))

end Statement

section Runs

theorem handleRegister_run_ok {tokens : List CString} {shown : Shown}
    (h : (handleRegisterShown env tokens).run s = (.ok (some shown), t)) :
    (handleRegister env tokens).run s = (.ok (some ()), t) := by
  rw [handleRegister_hides, run_bind_apply, h]
  rfl

theorem handleRegister_run_error {tokens : List CString} {code : Int}
    (h : (handleRegisterShown env tokens).run s = (.error code, t)) :
    (handleRegister env tokens).run s = (.error code, t) := by
  rw [handleRegister_hides, run_bind_apply, h]

theorem options_known {action : CString} {more : List CString}
    (haction : matchRegisterOption (some action) ≠ .INVALID_REGISTER_OPT)
    (hmode : mode = "s".toList ∨ mode = "d".toList) : OptionsKnown (action :: mode :: more) :=
  ⟨haction, (mode_known hmode).1⟩

theorem read_run (hmode : mode = "s".toList ∨ mode = "d".toList)
    (hfault : env.fault t.log.length = false) :
    (handleRegisterShown env (readTokens mode token)).run t =
      match namedRegister 16 mode token with
      | none => (.error 1, t.note .getRegs true)
      | some reg => (.ok (some (.value (t.debugee.regs.get reg))), t.note .getRegs true) := by
  rw [readTokens, handleRegisterShown_granted (options_known (by decide) hmode) hfault,
    registerCall_read_named hmode]
  cases namedRegister 16 mode token <;> rfl

-- What a write does, by the requests that are refused.
theorem write_refused (hmode : mode = "s".toList ∨ mode = "d".toList)
    (hfault : env.fault s.log.length = true) :
    (handleRegister env (writeTokens mode token value)).run s
      = (.error Errors.PTRACE_ERROR.code, s.note .getRegs false) :=
  handleRegister_run_error (handleRegisterShown_refused (options_known (by decide) hmode) hfault)

theorem write_rejected (hmode : mode = "s".toList ∨ mode = "d".toList)
    (hvalue : numeralValue value = some n) (hfault : env.fault s.log.length = false)
    (hnone : namedRegister 10 mode token = none) :
    (handleRegister env (writeTokens mode token value)).run s
      = (.error 1, s.note .getRegs true) := by
  apply handleRegister_run_error
  rw [writeTokens, handleRegisterShown_granted (options_known (by decide) hmode) hfault,
    (registerCall_write_none_iff hmode hvalue).mpr hnone]

theorem registerCall_write_some {reg : REGISTER}
    (hmode : mode = "s".toList ∨ mode = "d".toList) (hvalue : numeralValue value = some n)
    (hlow : -2 ^ 63 ≤ n) (hreg : namedRegister 10 mode token = some reg) (undef : UWORD) :
    registerCall undef (writeTokens mode token value)
      = some (.write (some reg) (BitVec.ofInt 64 (min n (2 ^ 63 - 1)))) := by
  have hclamp : max (-2 ^ 63) (min n (2 ^ 63 - 1)) = min n (2 ^ 63 - 1) := by omega
  rw [writeTokens, registerCall_write_named hmode, hreg, parseNumber_of_numeral hvalue, hclamp,
    Option.bind_some, if_pos rfl]

theorem write_dropped {reg : REGISTER} (hmode : mode = "s".toList ∨ mode = "d".toList)
    (hvalue : numeralValue value = some n) (hlow : -2 ^ 63 ≤ n)
    (hfault : env.fault s.log.length = false) (hreg : namedRegister 10 mode token = some reg)
    (hrefused : env.fault (s.log.length + 1) = true ∨ env.fault (s.log.length + 2) = true) :
    ∃ t, ¬Granted env s t ∧
      (handleRegister env (writeTokens mode token value)).run s = (.ok (some ()), t) := by
  obtain ⟨t, _, hnot, hrun⟩ := performCall_write_of_refused (s := s.note .getRegs true) hrefused
    s.debugee.regs reg (BitVec.ofInt 64 (min n (2 ^ 63 - 1)))
  refine ⟨t, fun hgranted => hnot (hgranted.since (Grown.note s _ _)), ?_⟩
  apply handleRegister_run_ok
  rw [writeTokens, handleRegisterShown_granted (options_known (by decide) hmode) hfault,
    ← writeTokens, registerCall_write_some hmode hvalue hlow hreg]
  exact hrun

-- The registers behind a write that is granted its requests.
def written (s : Debugger κ) (reg : REGISTER) (n : Int) : Debugger κ :=
  (((s.note .getRegs true).note .getRegs true).note .setRegs true).withRegs
    (s.debugee.regs.set reg (BitVec.ofInt 64 (min n (2 ^ 63 - 1))))

theorem write_served {reg : REGISTER} (hmode : mode = "s".toList ∨ mode = "d".toList)
    (hvalue : numeralValue value = some n) (hlow : -2 ^ 63 ≤ n)
    (hfault : env.fault s.log.length = false) (hreg : namedRegister 10 mode token = some reg)
    (hget : env.fault (s.log.length + 1) = false) (hset : env.fault (s.log.length + 2) = false) :
    (handleRegister env (writeTokens mode token value)).run s
      = (.ok (some ()), written s reg n) := by
  apply handleRegister_run_ok
  rw [writeTokens, handleRegisterShown_granted (options_known (by decide) hmode) hfault,
    ← writeTokens, registerCall_write_some hmode hvalue hlow hreg]
  exact performCall_write_of_granted (s := s.note .getRegs true) hget hset s.debugee.regs reg _

theorem granted_written {reg : REGISTER} (hfault : env.fault s.log.length = false)
    (hget : env.fault (s.log.length + 1) = false) (hset : env.fault (s.log.length + 2) = false) :
    Granted env s (written s reg n) := by
  intro m hfrom hto
  have hlength : (written s reg n).log.length = s.log.length + 3 := rfl
  rw [hlength] at hto
  obtain rfl | rfl | rfl : m = s.log.length ∨ m = s.log.length + 1 ∨ m = s.log.length + 2 := by
    omega
  · exact hfault
  · exact hget
  · exact hset

theorem get_written (s : Debugger κ) (reg other : REGISTER) (n : Int) :
    (written s reg n).debugee.regs.get other =
      if other = reg then BitVec.ofInt 64 (min n (2 ^ 63 - 1)) else s.debugee.regs.get other :=
  RegsStruct.get_set ..

-- A number that needs 64 bits without its sign is written as the largest one with a sign.
theorem ofInt_min_iff (hlow : -2 ^ 63 ≤ n) (hhigh : n < 2 ^ 64) :
    BitVec.ofInt 64 (min n (2 ^ 63 - 1)) = BitVec.ofInt 64 n ↔ n < 2 ^ 63 := by
  constructor
  · intro h
    have hnat := congrArg BitVec.toNat h
    rw [BitVec.toNat_ofInt, BitVec.toNat_ofInt] at hnat
    omega
  · intro h
    rw [show min n (2 ^ 63 - 1) = n by omega]

end Runs

section Agreement

theorem agree_of_error {code : Int} (hcode : code ≠ 0)
    (hrun : (handleRegister env (writeTokens mode token value)).run s = (.error code, t))
    (hregs : t.debugee.regs = s.debugee.regs) : WriteReadAgree env mode token value n s where
  agrees u hok := by
    rw [hrun] at hok
    cases hok
  fails result u hresult _ := by
    rw [hrun] at hresult
    cases hresult
    exact ⟨⟨code, hcode, rfl⟩, hregs⟩

-- Behind a write that is granted its requests.
theorem agree_written_iff {reg : REGISTER} (hmode : mode = "s".toList ∨ mode = "d".toList)
    (hfault : env.fault s.log.length = false) (hget : env.fault (s.log.length + 1) = false)
    (hset : env.fault (s.log.length + 2) = false)
    (hrun : (handleRegister env (writeTokens mode token value)).run s
      = (.ok (some ()), written s reg n)) :
    WriteReadAgree env mode token value n s ↔
      ∃ read, namedRegister 16 mode token = some read ∧
        (written s reg n).debugee.regs.get read = BitVec.ofInt 64 n ∧
        ∀ other, other ≠ read →
          (written s reg n).debugee.regs.get other = s.debugee.regs.get other := by
  constructor
  · intro h
    obtain ⟨read, u, hshown, hread, hothers⟩ :=
      h.agrees _ hrun { env with fault := fun _ => false } rfl
    refine ⟨read, hread, ?_, hothers⟩
    rw [read_run hmode rfl, hread] at hshown
    exact Shown.value.inj (Option.some.inj (Outcome.ok.inj (congrArg Prod.fst hshown)))
  · rintro ⟨read, hread, hvalue, hothers⟩
    constructor
    · intro t hok readEnv hfault
      rw [hrun] at hok
      cases hok
      refine ⟨read, (written s reg n).note .getRegs true, ?_, hread, hothers⟩
      rw [read_run hmode hfault, hread]
      dsimp only
      rw [hvalue]
    · intro result t hresult hfailed
      rw [hrun] at hresult
      cases hresult
      rcases hfailed with hrefused | hne
      · exact absurd (granted_written hfault hget hset) hrefused
      · exact absurd rfl hne

theorem agreesOn_granted {reg : REGISTER} (h : AgreesOn env mode token n s)
    (hfault : env.fault s.log.length = false) (hwrite : namedRegister 10 mode token = some reg)
    (hrefused : env.fault (s.log.length + 1) = true ∨ env.fault (s.log.length + 2) = true) :
    False := by
  have hgranted : env.fault (s.log.length + 1) = false ∧ env.fault (s.log.length + 2) = false := by
    cases h with
    | rejected hnone =>
        rw [hwrite] at hnone
        cases hnone
    | refused htrue =>
        rw [hfault] at htrue
        cases htrue
    | same hget hset => exact ⟨hget, hset⟩
    | other hget hset => exact ⟨hget, hset⟩
  rw [hgranted.1, hgranted.2] at hrefused
  rcases hrefused with h | h <;> cases h

theorem shows_written_iff {reg : REGISTER} (hlow : -2 ^ 63 ≤ n) (hhigh : n < 2 ^ 64)
    (hfault : env.fault s.log.length = false) (hget : env.fault (s.log.length + 1) = false)
    (hset : env.fault (s.log.length + 2) = false)
    (hwrite : namedRegister 10 mode token = some reg) :
    (∃ read, namedRegister 16 mode token = some read ∧
        (written s reg n).debugee.regs.get read = BitVec.ofInt 64 n ∧
        ∀ other, other ≠ read →
          (written s reg n).debugee.regs.get other = s.debugee.regs.get other) ↔
      AgreesOn env mode token n s := by
  constructor
  · rintro ⟨read, hread, hshown, hothers⟩
    rw [get_written] at hshown
    by_cases hsame : read = reg
    · subst hsame
      rw [if_pos rfl, ofInt_min_iff hlow hhigh] at hshown
      exact .same hget hset hwrite hread hshown
    · rw [if_neg hsame] at hshown
      have hkept := hothers reg (Ne.symm hsame)
      rw [get_written, if_pos rfl] at hkept
      exact .other hget hset hwrite hread hsame hshown hkept.symm
  · intro h
    cases h with
    | rejected hnone =>
        rw [hwrite] at hnone
        cases hnone
    | refused htrue =>
        rw [hfault] at htrue
        cases htrue
    | same _ _ hsame hread hvalue =>
        rw [hwrite] at hsame
        cases hsame
        refine ⟨reg, hread, ?_, fun other hother => ?_⟩
        · rw [get_written, if_pos rfl, ofInt_min_iff hlow hhigh]
          exact hvalue
        · rw [get_written, if_neg hother]
    | @other _ read _ _ hsame hread hne hholds hkept =>
        rw [hwrite] at hsame
        cases hsame
        refine ⟨read, hread, ?_, fun other _ => ?_⟩
        · rw [get_written, if_neg hne, hholds]
        · rw [get_written]
          split
          · next heq => rw [heq, hkept]
          · rfl

theorem write_read_agree_iff (hmode : mode = "s".toList ∨ mode = "d".toList)
    (hvalue : numeralValue value = some n) (hlow : -2 ^ 63 ≤ n) (hhigh : n < 2 ^ 64) :
    WriteReadAgree env mode token value n s ↔ AgreesOn env mode token n s := by
  cases hfault : env.fault s.log.length with
  | true =>
      exact iff_of_true (agree_of_error (by decide) (write_refused hmode hfault) rfl)
        (.refused hfault)
  | false =>
      cases hwrite : namedRegister 10 mode token with
      | none =>
          exact iff_of_true
            (agree_of_error (by decide) (write_rejected hmode hvalue hfault hwrite) rfl)
            (.rejected hwrite)
      | some reg =>
          by_cases hrefused : env.fault (s.log.length + 1) = true ∨
              env.fault (s.log.length + 2) = true
          · refine iff_of_false ?_ ?_
            · intro h
              obtain ⟨t, hnot, hrun⟩ := write_dropped hmode hvalue hlow hfault hwrite hrefused
              obtain ⟨⟨code, _, herror⟩, _⟩ := h.fails _ t hrun (.inl hnot)
              cases herror
            · intro h
              exact agreesOn_granted h hfault hwrite hrefused
          · rw [not_or, Bool.not_eq_true, Bool.not_eq_true] at hrefused
            obtain ⟨hget, hset⟩ := hrefused
            rw [agree_written_iff hmode hfault hget hset
              (write_served hmode hvalue hlow hfault hwrite hget hset)]
            exact shows_written_iff hlow hhigh hfault hget hset hwrite

end Agreement

section Examples

theorem write_read_rax :
    WriteReadAgree nopEnv "d".toList "0".toList "5".toList 5 (atPrompt (fun _ => 0x90) 0x2000) :=
  (write_read_agree_iff (.inr rfl) (by decide) (by decide) (by decide)).mpr
    (AgreesOn.same rfl rfl (show namedRegister 10 _ _ = some .rax by decide) (by decide) (by decide))

-- `reg write d 10 5` writes r10, and `reg read d 10` looks for the register of the number 16.
theorem write_read_r10 :
    let s := atPrompt (fun _ => 0x90) 0x2000
    let write := (handleRegister nopEnv (writeTokens "d".toList "10".toList "5".toList)).run s
    numeralValue "5".toList = some 5 ∧ write.1 = .ok (some ()) ∧ write.2.debugee.regs.r10 = 5 ∧
      ((handleRegister nopEnv (readTokens "d".toList "10".toList)).run write.2).1 = .error 1 ∧
      ¬WriteReadAgree nopEnv "d".toList "10".toList "5".toList 5 s := by
  intro s write
  have hwrite : write.1 = .ok (some ()) := by decide +kernel
  have hread : ((handleRegister nopEnv (readTokens "d".toList "10".toList)).run write.2).1
      = .error 1 := by decide +kernel
  refine ⟨by decide, hwrite, by decide +kernel, hread, fun h => ?_⟩
  obtain ⟨reg, u, hshown, _⟩ := h.agrees write.2 (Prod.ext hwrite rfl) nopEnv rfl
  rw [handleRegister_run_ok hshown] at hread
  cases hread

end Examples

end VDebugger
