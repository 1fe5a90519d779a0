import VDebugger.Var.Offsets

namespace VDebugger

open Machine HandlerM

variable {κ : Type} {env : Env κ} {var : VarEnv κ} {types : TypeEnv}

section SignExtension

variable {bits v : Nat}

-- How many bits a form has for a constant without a sign.
def LocForm.unsignedBits : LocForm → Option Nat
  | .DW_FORM_data1 => some 8
  | .DW_FORM_data2 => some 16
  | .DW_FORM_data4 => some 32
  | .DW_FORM_data8 | .DW_FORM_udata => some 64
  | _ => none

theorem unsignedBits_le {form : LocForm} (h : form.unsignedBits = some bits) : bits ≤ 64 := by
  cases form <;> cases h <;> decide

theorem isConstant_of_unsignedBits {form : LocForm} (h : form.unsignedBits = some bits) :
    form.isConstant = true := by
  cases form <;> first | rfl | cases h

-- What `dwarf_formsdata` gives for a constant stored in so many bits.
def signExtended (bits v : Nat) : WORD := (BitVec.ofNat bits v).signExtend 64

-- The number is kept if its top bit is not taken for a sign.
theorem signExtended_eq_iff (hbits : bits ≤ 64) (hwide : v < 2 ^ bits) :
    signExtended bits v = BitVec.ofNat 64 v ↔ bits = 64 ∨ 2 * v < 2 ^ bits := by
  have hpow : 2 ^ bits ≤ 2 ^ 64 := Nat.pow_le_pow_right (by decide) hbits
  have hlow : ((BitVec.ofNat bits v).setWidth 64).toNat = v := by
    rw [BitVec.toNat_setWidth, BitVec.toNat_ofNat, Nat.mod_eq_of_lt hwide,
      Nat.mod_eq_of_lt (by omega)]
  have hmsb : (BitVec.ofNat bits v).msb = true ↔ ¬2 * v < 2 ^ bits := by
    rw [BitVec.msb_eq_true_iff_two_mul_ge, BitVec.toNat_ofNat, Nat.mod_eq_of_lt hwide]
    omega
  rw [← BitVec.toNat_inj, signExtended, BitVec.toNat_signExtend, hlow, BitVec.toNat_ofNat,
    Nat.mod_eq_of_lt (by omega)]
  by_cases htop : (BitVec.ofNat bits v).msb = true
  · have hnarrow : bits = 64 ↔ 2 ^ bits = 2 ^ 64 :=
      (Nat.pow_right_injective (Nat.le_refl 2)).eq_iff.symm
    rw [if_pos htop, or_iff_left (hmsb.mp htop), hnarrow]
    omega
  · rw [if_neg htop]
    exact iff_of_true rfl (.inr (not_not.mp (mt hmsb.mpr htop)))

end SignExtension

section Lines

variable {name varVal line : CString} {declLine : WORD} {v : Nat}

-- The line says that the variable is declared at line `v`.
def ReportsLine (name : CString) (v : Nat) (line : CString) : Prop :=
  ∃ varVal, line = name ++ " (declared at line ".toList ++ decimal v ++ "): ".toList ++ varVal ++
    ['\n']

-- The number ends at the first parenthesis behind it.
theorem takeWhile_decimal (n : Int) (behind : CString) :
    (decimal n ++ ')' :: behind).takeWhile (· ≠ ')') = decimal n := by
  have hall : ∀ c ∈ decimal n, decide (c ≠ ')') = true := fun c hc =>
    decide_eq_true fun h => notMem_decimal (by decide) (by decide) n (h ▸ hc)
  rw [List.takeWhile_append_of_pos hall]
  simp

theorem reportsLine_iff :
    ReportsLine name v (localVarLine name declLine varVal) ↔ declLine.toInt = v := by
  constructor
  · rintro ⟨other, h⟩
    unfold localVarLine at h
    simp only [List.append_assoc, List.append_cancel_left_eq, formatSigned_eq] at h
    have hnumber := congrArg (List.takeWhile (· ≠ ')')) h
    exact decimal_injective
      ((takeWhile_decimal _ _).symm.trans (hnumber.trans (takeWhile_decimal _ _)))
  · intro h
    refine ⟨varVal, ?_⟩
    rw [localVarLine, formatSigned_eq, h]

-- The line that `handle_get_local_var` writes has the line number that was read.
theorem printLocalVar_line {subProgDie varDie : Die} {pc : UWORD} {locInfo : LocInfo}
    {s t u : Debugger κ} (hscope : localScope env var s = (.ok (subProgDie, pc, locInfo), t))
    (hfound : getLocalVarFromName var.undefName (some name) pc subProgDie =
      some (.ok (), some varDie))
    (hline : var.declLine varDie = .ok declLine)
    (hrun : (printLocalVar env var types (some name)).run s = (.ok (some line), u)) :
    ∃ varVal, line = localVarLine name declLine varVal := by
  have hread : ¬var.declLine varDie = .error := by
    rw [hline]
    exact fun h => by cases h
  unfold printLocalVar at hrun
  rw [run_call_bind, hscope] at hrun
  dsimp only at hrun
  rw [hfound] at hrun
  dsimp only at hrun
  unfold printStage at hrun
  rw [run_rejectIf_of_not hread, run_call_bind] at hrun
  rcases hlocation : varLocation var locInfo (some varDie) .DW_AT_location t with
    ⟨varAddr | _ | _, v⟩ <;> rw [hlocation] at hrun
  · dsimp only at hrun
    rw [run_call_bind] at hrun
    rcases hval : sprintVariableDieVal env var types types.fuel (types.typeOffset varDie) varAddr v
      with ⟨varVal | _ | _, w⟩ <;> rw [hval] at hrun
    · rw [hline] at hrun
      cases hrun
      exact ⟨varVal, rfl⟩
    · cases hrun
    · cases hrun
  · cases hrun
  · cases hrun

end Lines

section Unsigned

variable {form : LocForm} {bits v : Nat}

theorem memberAddr_unsigned_iff {member : MemberDie} {attr : LocAttribute} (locInfo : LocInfo)
    (varAddr : UWORD) (s : Debugger κ) (hbits : form.unsignedBits = some bits)
    (hwide : v < 2 ^ bits) (hattr : member.dataMemberLocation = .ok attr)
    (hform : attr.whatform = .ok form) (hstored : attr.formsdata = .ok (signExtended bits v)) :
    memberAddr env var types locInfo varAddr member s =
        (.ok (some (BitVec.ofNat 64 v + varAddr)), s) ↔
      if member.diename = .noEntry then v = 0 else bits = 64 ∨ 2 * v < 2 ^ bits := by
  have hpow : 2 ^ bits ≤ 2 ^ 64 := Nat.pow_le_pow_right (by decide) (unsignedBits_le hbits)
  split_ifs with hname
  · rw [memberAddr_unnamed hname]
    have hzero : BitVec.ofNat 64 v = 0 ↔ v = 0 := by
      rw [← BitVec.toNat_inj, BitVec.toNat_ofNat, Nat.mod_eq_of_lt (by omega)]
      rfl
    rw [← hzero]
    constructor
    · intro h
      have hsame := Option.some.inj (Outcome.ok.inj (congrArg Prod.fst h))
      bv_omega
    · intro h
      rw [h]
      exact congrArg (fun addr => (Outcome.ok (some addr), s)) (BitVec.zero_add varAddr).symm
  · rw [← signExtended_eq_iff (unsignedBits_le hbits) hwide,
      memberAddr_constant_eq_ok hname (locAttribute_of_ok hattr _) hform
        (isConstant_of_unsignedBits hbits)]
    constructor
    · rintro ⟨offset, hoffset, haddr⟩
      rw [hstored] at hoffset
      cases hoffset
      have hsame := Option.some.inj haddr
      bv_omega
    · exact fun h => ⟨_, hstored, by rw [h]⟩

-- An offset or a line number that has the top bit of its form is read as a negative number.
theorem unsigned_constant_iff (env : Env κ) (var : VarEnv κ) (types : TypeEnv)
    (hbits : form.unsignedBits = some bits) (hwide : v < 2 ^ bits) :
    (∀ (member : MemberDie) (attr : LocAttribute) (locInfo : LocInfo) (varAddr : UWORD)
        (s : Debugger κ), member.dataMemberLocation = .ok attr → attr.whatform = .ok form →
      attr.formsdata = .ok (signExtended bits v) →
      (memberAddr env var types locInfo varAddr member s =
          (.ok (some (BitVec.ofNat 64 v + varAddr)), s) ↔
        if member.diename = .noEntry then v = 0 else bits = 64 ∨ 2 * v < 2 ^ bits)) ∧
      (v < 2 ^ 31 → ∀ (name line : CString) (subProgDie varDie : Die) (pc : UWORD)
          (locInfo : LocInfo) (s t u : Debugger κ),
        localScope env var s = (.ok (subProgDie, pc, locInfo), t) →
        getLocalVarFromName var.undefName (some name) pc subProgDie =
          some (.ok (), some varDie) →
        var.declLine varDie = .ok (signExtended bits v) →
        (printLocalVar env var types (some name)).run s = (.ok (some line), u) →
        (ReportsLine name v line ↔ bits = 64 ∨ 2 * v < 2 ^ bits)) := by
  refine ⟨fun member attr locInfo varAddr s hattr hform hstored =>
    memberAddr_unsigned_iff locInfo varAddr s hbits hwide hattr hform hstored, ?_⟩
  intro hv name line subProgDie varDie pc locInfo s t u hscope hfound hline hrun
  obtain ⟨varVal, rfl⟩ := printLocalVar_line hscope hfound hline hrun
  have hsmall : (BitVec.ofNat 64 v).toInt = v := by
    rw [BitVec.toInt_ofNat', Int.bmod_eq_of_le (by omega) (by omega)]
  rw [reportsLine_iff, ← signExtended_eq_iff (unsignedBits_le hbits) hwide, ← hsmall,
    BitVec.toInt_inj]

-- Each variable is declared at a line that is stored in one byte.
def lineVarEnv (v : Nat) : VarEnv Unit :=
  { implicitVarEnv with declLine := fun _ => .ok (signExtended 8 v) }

theorem hundred_in_data1 :
    memberAddr nopEnv (lineVarEnv 100) (unsignedTypes 8) objectLocInfo 0x3000
        (wordMember (.ok "b".toList) 100 0x40) sevenBehind = (.ok (some 0x3064), sevenBehind) ∧
      ReportsLine "x".toList 100 "x (declared at line 100): 10416984888683040912\n".toList := by
  have hprinted : ((printLocalVar nopEnv (lineVarEnv 100) (unsignedTypes 8)
      (some "x".toList)).run inTwoLocals).1.value? =
        some (some "x (declared at line 100): 10416984888683040912\n".toList) := by
    decide +kernel
  have hbits : LocForm.DW_FORM_data1.unsignedBits = some 8 := rfl
  have hwide : 100 < 2 ^ 8 := by decide
  obtain ⟨hoffset, hline⟩ :=
    unsigned_constant_iff nopEnv (lineVarEnv 100) (unsignedTypes 8) hbits hwide
  refine ⟨(hoffset (wordMember (.ok "b".toList) 100 0x40) _ objectLocInfo 0x3000 sevenBehind rfl rfl
    rfl).mpr ?_, ?_⟩
  · decide
  · exact (hline (by decide) "x".toList _ functionOfX variableX 0x2000 stoppedInFunction
      inTwoLocals _ _ rfl rfl rfl (eq_of_value hprinted)).mpr (.inr (by decide))

-- The offset 200 is read as -56, and so is the line.
theorem two_hundred_in_data1 :
    signExtended 8 200 = -56 ∧
      memberAddr nopEnv (lineVarEnv 200) (unsignedTypes 8) objectLocInfo 0x3000
        (wordMember (.ok "b".toList) (signExtended 8 200) 0x40) sevenBehind =
          (.ok (some 0x2fc8), sevenBehind) ∧
      (0x2fc8 : UWORD) ≠ BitVec.ofNat 64 200 + 0x3000 ∧
      ((printLocalVar nopEnv (lineVarEnv 200) (unsignedTypes 8) (some "x".toList)).run
        inTwoLocals).1.value? =
          some (some "x (declared at line -56): 10416984888683040912\n".toList) ∧
      ¬ReportsLine "x".toList 200 "x (declared at line -56): 10416984888683040912\n".toList := by
  have hline : localVarLine "x".toList (signExtended 8 200) "10416984888683040912".toList =
      "x (declared at line -56): 10416984888683040912\n".toList := by
    decide +kernel
  refine ⟨by decide, rfl, by decide, by decide +kernel, ?_⟩
  rw [← hline, reportsLine_iff]
  decide

end Unsigned

end VDebugger
