import VDebugger.Handlers
import VDebugger.LocExpr.Branches
import VDebugger.LocExpr.Passes

namespace VDebugger

open Machine Reference

variable {env : ExprEnv} {s : LocExpr} {loc : LocOp} {n : Nat} {reg : REGISTER}

-- The register that DWARF gives this number, by the mapping that `load_DW_mappings` fills.
def dwarfRegister (n : Nat) : Option REGISTER :=
  (DWARFMappings.findIdx? (· = (n : Int))).bind getRegister

theorem dwarfRegister_eq_some (h : dwarfRegister n = some reg) :
    ∃ i, getRegister i = some reg ∧ DWARFMappings[i]? = some (n : Int) := by
  obtain ⟨i, hfind, hget⟩ := Option.bind_eq_some_iff.mp h
  obtain ⟨hlt, hat, _⟩ := List.findIdx?_eq_some_iff_getElem.mp hfind
  refine ⟨i, hget, ?_⟩
  rw [List.getElem?_eq_getElem hlt]
  simpa using hat

theorem dwarfRegister_lt (h : dwarfRegister n = some reg) : n < 60 := by
  obtain ⟨i, _, hat⟩ := dwarfRegister_eq_some h
  have hall : ∀ m ∈ DWARFMappings, m < 60 := by decide
  have hlt := hall n (List.mem_of_getElem? hat)
  omega

-- No register has the same number in both.
theorem getRegister_ne_dwarfRegister (h : dwarfRegister n = some reg) :
    getRegister n ≠ some reg := by
  intro hsame
  obtain ⟨i, hget, hat⟩ := dwarfRegister_eq_some h
  have hnodup : REGISTER.all.Nodup := by decide
  obtain ⟨hlt, _⟩ := List.getElem?_eq_some_iff.mp hget
  obtain rfl : i = n := (List.getElem?_inj hlt hnodup).mp (hget.trans hsame.symm)
  have hapart : ∀ i : Nat, i < 27 → DWARFMappings[i]? ≠ some (i : Int) := by decide
  exact hapart i hlt hat

-- The register and the offset of the two kinds of operation.
def LocOp.registerOperand (loc : LocOp) : Option (Nat × UWORD) :=
  match loc.op with
  | .DW_OP_breg n => some (n, loc.opd1)
  | .DW_OP_bregx => some (loc.opd1.toNat, loc.opd2)
  | _ => none

-- What is added to the register: nothing, or the offset and a variable without a value.
def LocOp.registerAddend (env : ExprEnv) (loc : LocOp) (s : LocExpr) : UWORD :=
  match loc.op with
  | .DW_OP_bregx => env.undef s.accesses.length + loc.opd2
  | _ => 0

theorem readRegister_some (h : getRegister n = some reg) (hlt : n < 2 ^ 32) (s : LocExpr) :
    readRegister n s = (.ok (s.locInfo.calleeRegsCurValue.get reg), s) := by
  unfold readRegister
  rw [Action.bind_of_ok (Action.fetch_apply s), Nat.mod_eq_of_lt hlt, h]
  rfl

theorem readRegister_none (h : getRegister n = none) (hlt : n < 2 ^ 32) (s : LocExpr) :
    readRegister n s = (.error 1, s) := by
  unfold readRegister
  rw [Action.bind_of_ok (Action.fetch_apply s), Nat.mod_eq_of_lt hlt, h]
  rfl

-- Both kinds read the register that `REGISTER` numbers so.
theorem parseOpcode_registerOperand (env : ExprEnv) (s : LocExpr) {k : UWORD}
    (hoperand : loc.registerOperand = some (n, k)) :
    ∃ x : ExprM Unit, parseOpcode env loc = nextOp x ∧
      x s = (readRegister n >>= fun value =>
        pushExprTkn (value + loc.registerAddend env s)) s := by
  unfold LocOp.registerOperand at hoperand
  unfold LocOp.registerAddend parseOpcode
  split at hoperand
  · next n' hop =>
      obtain ⟨rfl, rfl⟩ := Prod.mk.inj (Option.some.inj hoperand)
      rw [hop]
      refine ⟨_, rfl, ?_⟩
      have hzero (value : UWORD) : value + 0 = value := by simp
      simp only [hzero]
  · next hop =>
      obtain ⟨rfl, rfl⟩ := Prod.mk.inj (Option.some.inj hoperand)
      rw [hop]
      refine ⟨_, rfl, ?_⟩
      rw [Action.bind_of_ok (Action.fetch_apply s)]
      have hadd (value : UWORD) : env.undef s.accesses.length + (value + loc.opd2)
          = value + (env.undef s.accesses.length + loc.opd2) := by
        rw [← BitVec.add_assoc, BitVec.add_comm _ value, BitVec.add_assoc]
      simp only [hadd]
  · cases hoperand

theorem register_leaves {k : UWORD} (hoperand : loc.registerOperand = some (n, k))
    (hread : getRegister n = some reg) (hlt : n < 2 ^ 32) {stack : Stack}
    (h : Holds s.locInfo s stack) (hroom : stack.length < 256) :
    Leaves env loc s
      ((s.locInfo.calleeRegsCurValue.get reg + loc.registerAddend env s) :: stack) := by
  obtain ⟨x, hop, hx⟩ := parseOpcode_registerOperand env s hoperand
  rw [Action.bind_of_ok (readRegister_some hread hlt s)] at hx
  exact push_leaves hop hx h hroom

theorem not_register_leaves {k : UWORD} (hoperand : loc.registerOperand = some (n, k))
    (hread : getRegister n = none) (hlt : n < 2 ^ 32) (stack : Stack) :
    ¬Leaves env loc s stack := by
  obtain ⟨x, hop, hx⟩ := parseOpcode_registerOperand env s hoperand
  rw [Action.bind_of_error (readRegister_none hread hlt s)] at hx
  have hfails : parseOpcode env loc s = (.error 1, s) := by
    rw [hop]
    exact Action.bind_of_error hx _
  exact not_leaves_of_error hfails stack

-- The address comes out right where that register happens to give it.
theorem register_relative_iff (env : ExprEnv) (loc : LocOp) (n : Nat) (k : UWORD)
    (hoperand : loc.registerOperand = some (n, k)) (reg : REGISTER)
    (hreg : dwarfRegister n = some reg) (s : LocExpr) (stack : Stack)
    (h : Holds s.locInfo s stack) (hroom : stack.length < 256) :
    Leaves env loc s ((s.locInfo.calleeRegsCurValue.get reg + k) :: stack) ↔
      ∃ read, getRegister n = some read ∧
        s.locInfo.calleeRegsCurValue.get read + loc.registerAddend env s
          = s.locInfo.calleeRegsCurValue.get reg + k := by
  have hlt : n < 2 ^ 32 := by
    have hsmall := dwarfRegister_lt hreg
    omega
  cases hread : getRegister n with
  | none => simp [not_register_leaves hoperand hread hlt]
  | some read =>
      rw [(register_leaves hoperand hread hlt h hroom).iff_eq, List.cons_eq_cons]
      simp

-- For no register and offset is it right whatever the registers hold.
theorem no_register_always_right (env : ExprEnv) (loc : LocOp) {k : UWORD}
    (hoperand : loc.registerOperand = some (n, k)) (hreg : dwarfRegister n = some reg) :
    ∃ regs : RegsStruct,
      ¬Leaves env loc (holding { calleeRegsCurValue := regs } 0 0) [regs.get reg + k] := by
  have hlt : n < 2 ^ 32 := by
    have hsmall := dwarfRegister_lt hreg
    omega
  cases hread : getRegister n with
  | none => exact ⟨{}, not_register_leaves hoperand hread hlt _⟩
  | some read =>
      have hapart : read ≠ reg := fun heq =>
        getRegister_ne_dwarfRegister hreg (hread.trans (congrArg some heq))
      let addend := loc.registerAddend env (holding {} 0 0)
      let regs := ({} : RegsStruct).set reg (addend - k + 1)
      refine ⟨regs, fun hleaves => ?_⟩
      have hheld : Holds { calleeRegsCurValue := regs }
          (holding { calleeRegsCurValue := regs } 0 0) [] := holding_holds _ _ (by omega)
      have hgiven : Leaves env loc (holding { calleeRegsCurValue := regs } 0 0)
          [regs.get read + addend] := register_leaves hoperand hread hlt hheld (by simp)
      have hword := (List.cons.inj ((hgiven.iff_eq _).mp hleaves)).1
      have hzero : ({} : RegsStruct).get read = 0 := by cases read <;> rfl
      rw [RegsStruct.get_set, RegsStruct.get_set, if_neg hapart, if_pos rfl, hzero] at hword
      bv_omega

-- Register 6 is rbp, and `REGISTER` numbers r11 so.
def framePointer : RegsStruct where
  rbp := 0x7000
  r11 := 0x6ff0

theorem breg_minus_sixteen :
    Leaves noEnv ⟨.DW_OP_breg 6, -16, 0, 0, 0⟩
      (holding { calleeRegsCurValue := framePointer } 0 0) [0x7000 + -16] :=
  (register_relative_iff _ _ 6 (-16) rfl .rbp (by decide) _ [] (holding_holds _ _ (by omega))
    (by simp)).mpr ⟨.r11, rfl, rfl⟩

theorem breg_minus_eight :
    dwarfRegister 6 = some .rbp ∧
      ¬Leaves noEnv ⟨.DW_OP_breg 6, -8, 0, 0, 0⟩
        (holding { calleeRegsCurValue := framePointer } 0 0) [framePointer.rbp + -8] := by
  refine ⟨by decide, fun hleaves => ?_⟩
  have hheld : Holds { calleeRegsCurValue := framePointer }
      (holding { calleeRegsCurValue := framePointer } 0 0) [] := holding_holds _ _ (by omega)
  have hread : Leaves noEnv ⟨.DW_OP_breg 6, -8, 0, 0, 0⟩
      (holding { calleeRegsCurValue := framePointer } 0 0) [framePointer.r11 + 0] :=
    register_leaves (n := 6) (k := -8) rfl rfl (by omega) hheld (by simp)
  have hword := (List.cons.inj ((hread.iff_eq _).mp hleaves)).1
  exact absurd hword (by decide)

-- The number of a register location.
def LocOp.registerNumber (loc : LocOp) : Option Nat :=
  match loc.op with
  | .DW_OP_reg n => some n
  | .DW_OP_regx => some loc.opd1.toNat
  | _ => none

-- The number is pushed, not the content.
theorem parseOpcode_registerNumber (env : ExprEnv) (hnumber : loc.registerNumber = some n) :
    parseOpcode env loc = pushExprTkn (BitVec.ofNat 64 n) >>= fun _ =>
      pure (DwExprAction.RESULT_REGISTER.code, 0) := by
  unfold LocOp.registerNumber at hnumber
  unfold parseOpcode
  split at hnumber
  · next n' hop =>
      obtain rfl := Option.some.inj hnumber
      simp only [hop]
  · next hop =>
      obtain rfl := Option.some.inj hnumber
      simp only [hop, BitVec.ofNat_toNat, BitVec.setWidth_eq]
  · cases hnumber

theorem evalPass_registerNumber {ops : List (DwRes LocOp)} {i next : Nat} {t : LocExpr}
    {locInfo : LocInfo} {stack : Stack} (hget : ops[i]? = some (.ok loc))
    (hnumber : loc.registerNumber = some n) (h : Holds locInfo s stack)
    (hpass : evalPass env ops i s = (.ok next, t)) :
    Holds locInfo t (BitVec.ofNat 64 n :: stack) := by
  have hop := parseOpcode_registerNumber env hnumber
  have hpush := push_agrees h (BitVec.ofNat 64 n)
  by_cases hroom : (BitVec.ofNat 64 n :: stack).length ≤ 256
  · rw [limit_of_le hroom] at hpush
    obtain ⟨u, hu, hholds⟩ := hpush
    have hresult : parseOpcode env loc s = (.ok (DwExprAction.RESULT_REGISTER.code, 0), u) := by
      rw [hop, Action.bind_of_ok hu]
      rfl
    rw [evalPass_zero hget (evalOp_of_result hresult (by decide))] at hpass
    cases hpass
    exact hholds
  · rw [limit_of_lt (by omega)] at hpush
    obtain ⟨code, u, hu⟩ := hpush
    have hresult : parseOpcode env loc s = (.error code, u) := by
      rw [hop]
      exact Action.bind_of_error hu _
    have hfails : evalOp env loc s = (.error 1, u) :=
      Action.bind_of_error (Action.orFail_of_error hresult 1) _
    unfold evalPass at hpass
    rw [Action.bind_of_ok (getLocationOp_ok hget s), Action.bind_of_error hfails] at hpass
    cases hpass

-- Nothing looks the register up: the last `switch` sees the result of the pop.
theorem register_result_iff (env : ExprEnv) (locInfo : LocInfo) (ops : List (DwRes LocOp))
    (index passes : Nat) (loc : LocOp) (t u : LocExpr)
    (hlast : LastExecuted env ops index locInfo.startExpr passes loc t u) (n : Nat)
    (hnumber : loc.registerNumber = some n) :
    (∀ reg, dwarfRegister n = some reg → ∀ fuel value,
        (evaluateExpr env fuel ops index locInfo.startExpr).1 = .ok value →
          value = locInfo.calleeRegsCurValue.get reg) ↔
      ∀ reg, dwarfRegister n = some reg →
        locInfo.calleeRegsCurValue.get reg = BitVec.ofNat 64 n := by
  obtain ⟨i, next, hreach, hget, hpass, _⟩ := hlast.pass
  obtain ⟨stack, hstack⟩ := hreach.holds
  have htop := evalPass_registerNumber hget hnumber hstack hpass
  constructor
  · intro hcontent reg hreg
    exact (hcontent reg hreg (passes + 1) _ (hlast.evaluateExpr_eq htop (by omega))).symm
  · intro hcontent reg hreg fuel value hvalue
    rw [hcontent reg hreg]
    exact hlast.evaluateExpr_value htop hvalue

-- A frame base in rbp.
def frameBaseOps : List (DwRes LocOp) := [.ok ⟨.DW_OP_reg 6, 0, 0, 0, 0⟩]

-- One pass pushes the number, after which there is no operation left.
theorem frameBaseOps_last (regs : RegsStruct) :
    let start := LocInfo.startExpr { calleeRegsCurValue := regs }
    LastExecuted noEnv frameBaseOps 0 start 0 ⟨.DW_OP_reg 6, 0, 0, 0, 0⟩ start
      (evalPass noEnv frameBaseOps 0 start).2 :=
  ⟨0, 1, .start, rfl, rfl, by decide⟩

theorem frame_base_six :
    (⟨.DW_OP_reg 6, 0, 0, 0, 0⟩ : LocOp).registerNumber = some 6 ∧
      ∀ reg, dwarfRegister 6 = some reg → ∀ fuel value,
        (evaluateExpr noEnv fuel frameBaseOps 0
          (LocInfo.startExpr { calleeRegsCurValue := { rbp := 6 } })).1 = .ok value →
            value = RegsStruct.get { rbp := 6 } reg := by
  refine ⟨rfl, (register_result_iff noEnv _ frameBaseOps 0 0 _ _ _ (frameBaseOps_last _) 6 rfl).mpr
    fun reg hreg => ?_⟩
  obtain rfl : reg = .rbp := by
    have hrbp : dwarfRegister 6 = some .rbp := by decide
    exact (Option.some.inj (hrbp.symm.trans hreg)).symm
  rfl

-- The frame base is 6, not the content of rbp.
theorem frame_base_is_number :
    let start := LocInfo.startExpr { calleeRegsCurValue := framePointer }
    LastExecuted noEnv frameBaseOps 0 start 0 ⟨.DW_OP_reg 6, 0, 0, 0, 0⟩ start
        (evalPass noEnv frameBaseOps 0 start).2 ∧
      dwarfRegister 6 = some .rbp ∧ (evaluateExpr noEnv 1 frameBaseOps 0 start).1 = .ok 6 ∧
      framePointer.get .rbp = 0x7000 :=
  ⟨frameBaseOps_last _, by decide, rfl, rfl⟩

end VDebugger
