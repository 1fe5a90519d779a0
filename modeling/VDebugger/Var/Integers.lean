import VDebugger.Var.Implicit

namespace VDebugger

open Machine

variable {κ : Type} {env : Env κ} {var : VarEnv κ} {types : TypeEnv}

section Decimal

-- A number as `%lli` and `%llu` write it.
def decimal (n : Int) : CString :=
  if n < 0 then '-' :: Nat.toDigits 10 n.natAbs else Nat.toDigits 10 n.natAbs

theorem toDigits_ten_injective : Function.Injective (Nat.toDigits 10) :=
  Function.LeftInverse.injective fun _ => Nat.ofDigitChars_ten_toDigits

theorem notMem_toDigits_ten {c : Char} (hdigit : ¬c.isDigit = true) (n : Nat) :
    c ∉ Nat.toDigits 10 n := fun h =>
  hdigit (Nat.isDigit_of_mem_toDigits (by decide) (by decide) h)

theorem notMem_decimal {c : Char} (hminus : c ≠ '-') (hdigit : ¬c.isDigit = true) (n : Int) :
    c ∉ decimal n := by
  unfold decimal
  split_ifs
  · exact fun h => (List.mem_cons.mp h).elim hminus (notMem_toDigits_ten hdigit _)
  · exact notMem_toDigits_ten hdigit _

-- Only the texts of negative numbers begin with the sign.
theorem decimal_injective : Function.Injective decimal := by
  have hsign (digits : CString) (n : Nat) : '-' :: digits ≠ Nat.toDigits 10 n := fun h =>
    notMem_toDigits_ten (by decide) n (h ▸ List.mem_cons_self)
  intro n m h
  unfold decimal at h
  split_ifs at h with hn hm hm
  · have hdigits := toDigits_ten_injective (List.cons.inj h).2
    omega
  · exact absurd h (hsign _ _)
  · exact absurd h.symm (hsign _ _)
  · have hdigits := toDigits_ten_injective h
    omega

theorem formatSigned_eq (data : WORD) : formatSigned data = decimal data.toInt := rfl

theorem formatUnsigned_eq (data : UWORD) : formatUnsigned data = decimal data.toNat := by
  have hsign : ¬(data.toNat : Int) < 0 := by omega
  rw [decimal, if_neg hsign, Int.natAbs_natCast]
  rfl

end Decimal

section Masks

variable {n : Nat}

theorem toNat_lowMask (hn : n < 64) : (((1 : UWORD) <<< n) - 1).toNat = 2 ^ n - 1 := by
  have hpow : 2 ^ n < 2 ^ 64 := Nat.pow_lt_pow_right (by decide) hn
  have hpos : 0 < 2 ^ n := Nat.two_pow_pos n
  have hone : (1 : UWORD).toNat = 1 := rfl
  rw [BitVec.toNat_sub, BitVec.toNat_shiftLeft, hone, Nat.one_shiftLeft]
  omega

-- The mask leaves the low bytes and zeros above them.
theorem toNat_masked (data : UWORD) (hn : n < 64) :
    (data &&& (((1 : UWORD) <<< n) - 1)).toNat = (data.setWidth n).toNat := by
  rw [BitVec.toNat_and, toNat_lowMask hn, Nat.and_two_pow_sub_one_eq_mod, BitVec.toNat_setWidth]

-- So it leaves a number below zero only if all bytes are left.
theorem toInt_masked_iff (data : UWORD) (hn : n < 64) :
    (data &&& (((1 : UWORD) <<< n) - 1)).toInt = (data.setWidth n).toInt ↔
      (data.setWidth n).msb = false := by
  have hmask := toNat_masked data hn
  have hlow := (data.setWidth n).isLt
  have hpow : 2 ^ n ≤ 2 ^ 63 := Nat.pow_le_pow_right (by decide) (by omega)
  have hsigned : (data &&& (((1 : UWORD) <<< n) - 1)).toInt = (data.setWidth n).toNat := by
    rw [BitVec.toInt_eq_toNat_of_lt (by omega), hmask]
  rw [hsigned, BitVec.toInt_eq_msb_cond]
  cases (data.setWidth n).msb with
  | false => simp
  | true =>
      simp only [if_true, Bool.true_eq_false, iff_false]
      have hpos : 0 < 2 ^ n := Nat.two_pow_pos n
      omega

end Masks

section Base

variable {typeDie : TypeDie} {encoding : Encoding} {signed : Bool} {size : UWORD}

-- Whether the encoding is that of a signed integer, if it is that of an integer.
def Encoding.signed? : Encoding → Option Bool
  | .DW_ATE_signed | .DW_ATE_signed_char => some true
  | .DW_ATE_unsigned | .DW_ATE_unsigned_char => some false
  | _ => none

-- The number that the `n` low bytes of a word stand for.
def integerValue (signed : Bool) (n : Nat) (word : UWORD) : Int :=
  if signed then (word.setWidth (8 * n)).toInt else (word.setWidth (8 * n)).toNat

theorem integerValue_word_injective (signed : Bool) : Function.Injective (integerValue signed 8) := by
  intro word other h
  cases signed with
  | false => exact BitVec.eq_of_toNat_eq (Int.ofNat_inj.mp h)
  | true => exact BitVec.eq_of_toInt_eq h

theorem formatBase_integer (types : TypeEnv) (hsigned : encoding.signed? = some signed)
    (data : UWORD) :
    formatBase types encoding data = .ok (decimal (integerValue signed 8 data)) := by
  cases encoding <;> cases hsigned
  case DW_ATE_signed | DW_ATE_signed_char => exact congrArg DwRes.ok (formatSigned_eq data)
  case DW_ATE_unsigned | DW_ATE_unsigned_char => exact congrArg DwRes.ok (formatUnsigned_eq data)

theorem decodeBase_word (types : TypeEnv) (hencoding : typeDie.encoding = .ok encoding)
    (hsigned : encoding.signed? = some signed)
    (hsize : typeDie.bytesize = .noEntry ∨ typeDie.bytesize = .ok 8) (data : UWORD) :
    decodeBase types typeDie data = .ok (decimal (integerValue signed 8 data)) := by
  unfold decodeBase
  rcases hsize with hsize | hsize <;> rw [hencoding, hsize]
  · exact formatBase_integer types hsigned data
  · exact formatBase_integer types hsigned data

theorem decodeBase_masked (types : TypeEnv) (hencoding : typeDie.encoding = .ok encoding)
    (hsigned : encoding.signed? = some signed) (hsize : typeDie.bytesize = .ok size)
    (hsmall : size < 8) (data : UWORD) :
    decodeBase types typeDie data =
      .ok (decimal (integerValue signed 8 (data &&& (((1 : UWORD) <<< (8 * size.toNat)) - 1)))) := by
  have hle : ¬size > 8 := by bv_omega
  unfold decodeBase
  rw [hencoding, hsize]
  dsimp only
  rw [if_neg hle, if_pos hsmall]
  exact formatBase_integer types hsigned _

-- What is printed is the number that the bytes at the address stand for.
def PrintsInteger (env : Env κ) (types : TypeEnv) (signed : Bool) (size addr : UWORD)
    (typeDie : TypeDie) (s : Debugger κ) : Prop :=
  (sprintVarDieGivenBase env types addr typeDie s).1.value? =
    some (decimal (integerValue signed size.toNat (readWord s.debugee.mem addr.toNat)))

-- The mask clears the sign with the bytes above, and `%lli` reads all 64 bits.
theorem integer_printed_iff (types : TypeEnv) {s : Debugger κ} (addr : UWORD)
    (hgranted : env.fault s.log.length = false) (hencoding : typeDie.encoding = .ok encoding)
    (hsigned : encoding.signed? = some signed) (hsize : typeDie.bytesize = .ok size)
    (hhigh : size ≤ 8) :
    PrintsInteger env types signed size addr typeDie s ↔
      signed = false ∨ size = 8 ∨
        ((readWord s.debugee.mem addr.toNat).setWidth (8 * size.toNat)).msb = false := by
  have hprinted := sprintVarDieGivenBase_value env types typeDie addr s
  rw [hgranted, if_neg (by decide)] at hprinted
  unfold PrintsInteger
  rw [hprinted]
  by_cases hword : size = 8
  · subst hword
    rw [decodeBase_word types hencoding hsigned (.inr hsize)]
    exact iff_of_true rfl (.inr (.inl rfl))
  have hsmall : size < 8 := by bv_omega
  have hbits : 8 * size.toNat < 64 := by bv_omega
  rw [decodeBase_masked types hencoding hsigned hsize hsmall]
  simp only [DwRes.value?, Option.some_inj, decimal_injective.eq_iff, hword, false_or]
  cases signed with
  | false => exact iff_of_true (congrArg Int.ofNat (toNat_masked _ hbits)) (.inl rfl)
  | true =>
      rw [or_iff_right (by decide)]
      exact toInt_masked_iff _ hbits

def integerType (encoding : Encoding) (byteSize : UWORD) : TypeDie where
  tag := .ok .DW_TAG_base_type
  typeOffset := .noEntry
  encoding := .ok encoding
  bytesize := .ok byteSize
  children := []

theorem long_minus_one :
    PrintsInteger nopEnv (unsignedTypes 8) true 8 0x3000 (integerType .DW_ATE_signed 8)
      (atPrompt (fun _ => 0xff) 0x2000) :=
  (integer_printed_iff (unsignedTypes 8) 0x3000 rfl rfl rfl rfl (by decide)).mpr (.inr (.inl rfl))

-- An `int` of -1 is printed as the largest number of four bytes.
theorem int_minus_one :
    (sprintVarDieGivenBase nopEnv (unsignedTypes 8) 0x3000 (integerType .DW_ATE_signed 4)
        (atPrompt (fun _ => 0xff) 0x2000)).1.value? = some "4294967295".toList ∧
      integerValue true 4 (readWord (fun _ => 0xff) 0x3000) = -1 ∧
      ¬PrintsInteger nopEnv (unsignedTypes 8) true 4 0x3000 (integerType .DW_ATE_signed 4)
        (atPrompt (fun _ => 0xff) 0x2000) := by
  refine ⟨by decide +kernel, by decide, ?_⟩
  unfold PrintsInteger
  decide +kernel

end Base

section Pointers

-- The modifiers that leave a value what it is.
def TypeTag.isTransparent : TypeTag → Bool
  | .DW_TAG_typedef | .DW_TAG_const_type | .DW_TAG_volatile_type | .DW_TAG_restrict_type
  | .DW_TAG_atomic_type => true
  | _ => false

def TypeTag.isPointer : TypeTag → Bool
  | .DW_TAG_pointer_type | .DW_TAG_reference_type | .DW_TAG_rvalue_reference_type => true
  | _ => false

-- The modifiers on the way from a type to its base type, the outermost first.
inductive TypeChain (types : TypeEnv) : List TypeTag → DwRes UWORD → TypeDie → Prop
  | base {offset : UWORD} {typeDie : TypeDie} (hdie : types.offdie offset = .ok typeDie)
      (htag : typeDie.tag = .ok .DW_TAG_base_type) : TypeChain types [] (.ok offset) typeDie
  | modifier {offset : UWORD} {typeDie base : TypeDie} {tag : TypeTag} {tags : List TypeTag}
      (hdie : types.offdie offset = .ok typeDie) (htag : typeDie.tag = .ok tag)
      (hmodifier : tag.isModifier = true) (hrest : TypeChain types tags typeDie.typeOffset base) :
      TypeChain types (tag :: tags) (.ok offset) base

theorem TypeChain.hasBaseType {tags : List TypeTag} {offset : DwRes UWORD} {base : TypeDie}
    (h : TypeChain types tags offset base) : HasBaseType types (tags.length + 1) offset base := by
  induction h with
  | base hdie htag => exact .base hdie htag
  | modifier hdie htag hmodifier _ ih => exact .modifier hdie htag hmodifier ih

-- The type is a pointer or a reference, but for modifiers that are transparent.
def PointerOnTop (tags : List TypeTag) : Prop :=
  ∃ above tag below, tags = above ++ tag :: below ∧ (∀ t ∈ above, t.isTransparent = true) ∧
    tag.isPointer = true

-- The text at `addr` with this memory, printed from `s`.
def printedText (env : Env κ) (var : VarEnv κ) (types : TypeEnv) (fuel : Nat)
    (offset : DwRes UWORD) (addr : UWORD) (s : Debugger κ) (mem : Memory) : Option CString :=
  (sprintVariableDieVal env var types fuel offset addr (s.withMem mem)).1.value?

-- Two types print alike that differ in transparent modifiers only, and pointers that differ
-- print differently.
structure PointerText (env : Env κ) (var : VarEnv κ) (types : TypeEnv) (tags : List TypeTag)
    (offset : DwRes UWORD) (base : TypeDie) (s : Debugger κ) : Prop where
  transparent : ∀ {other tags' fuel fuel'}, TypeChain types tags' other base →
    (tags'.filter fun tag => !tag.isTransparent) = (tags.filter fun tag => !tag.isTransparent) →
    tags.length < fuel → tags'.length < fuel' →
    ∀ addr, sprintVariableDieVal env var types fuel' other addr =
      sprintVariableDieVal env var types fuel offset addr
  pointer : PointerOnTop tags → ∀ {fuel}, tags.length < fuel → ∀ addr addr' mem mem',
    readWord mem addr.toNat ≠ readWord mem' addr'.toNat →
    ∃ text text', printedText env var types fuel offset addr s mem = some text ∧
      printedText env var types fuel offset addr' s mem' = some text' ∧ text ≠ text'

theorem TypeChain.printedText_eq {tags : List TypeTag} {offset : DwRes UWORD} {base : TypeDie}
    (h : TypeChain types tags offset base) {fuel : Nat} (hfuel : tags.length < fuel)
    (env : Env κ) (var : VarEnv κ) {s : Debugger κ} (hgranted : env.fault s.log.length = false)
    (addr : UWORD) (mem : Memory) :
    printedText env var types fuel offset addr s mem =
      (decodeBase types base (readWord mem addr.toNat)).value? := by
  have hlog : (s.withMem mem).log = s.log := rfl
  unfold printedText
  rw [h.hasBaseType.sprintVariableDieVal_eq hfuel, sprintVarDieGivenBase_value, hlog, hgranted,
    if_neg (by decide)]
  rfl

-- The top bit of the word is lost if not all of the eight bytes are decoded.
theorem decodeBase_narrow (types : TypeEnv) {base : TypeDie} {encoding : Encoding}
    (hencoding : base.encoding = .ok encoding) (hmissing : base.bytesize ≠ .noEntry)
    (hsize : base.bytesize ≠ .ok 8) :
    decodeBase types base 0 = decodeBase types base (BitVec.intMin 64) := by
  unfold decodeBase
  rw [hencoding]
  cases hbytes : base.bytesize with
  | noEntry => exact absurd hbytes hmissing
  | error => rfl
  | ok size =>
      dsimp only
      split_ifs with hlarge hsmall
      · rfl
      · have hbits : 8 * size.toNat < 64 := by bv_omega
        have hdvd : 2 ^ (8 * size.toNat) ∣ 2 ^ 63 := Nat.pow_dvd_pow 2 (by omega)
        have hnone : (0 : UWORD) &&& (((1 : UWORD) <<< (8 * size.toNat)) - 1) =
            BitVec.intMin 64 &&& (((1 : UWORD) <<< (8 * size.toNat)) - 1) := by
          apply BitVec.eq_of_toNat_eq
          rw [toNat_masked _ hbits, toNat_masked _ hbits, BitVec.toNat_setWidth,
            BitVec.toNat_setWidth]
          exact (Nat.zero_mod _).trans (Nat.mod_eq_zero_of_dvd hdvd).symm
        rw [hnone]
      · have hword : size = 8 := by bv_omega
        exact absurd (hword ▸ hbytes) hsize

-- A pointer is decoded by the size of what it points to.
theorem pointer_text_iff (env : Env κ) (var : VarEnv κ) {tags : List TypeTag}
    {offset : DwRes UWORD} {base : TypeDie} (hchain : TypeChain types tags offset base)
    {encoding : Encoding} {signed : Bool} (hencoding : base.encoding = .ok encoding)
    (hsigned : encoding.signed? = some signed) {s : Debugger κ}
    (hgranted : env.fault s.log.length = false) :
    PointerText env var types tags offset base s ↔
      ¬PointerOnTop tags ∨ base.bytesize = .noEntry ∨ base.bytesize = .ok 8 := by
  have htext {fuel : Nat} (hfuel : tags.length < fuel) :=
    hchain.printedText_eq hfuel env var hgranted
  constructor
  · intro h
    by_cases htop : PointerOnTop tags
    · right
      -- The two words differ in the top bit only.
      have hne : readWord (writeWord (fun _ => 0) (0 : UWORD).toNat 0) (0 : UWORD).toNat ≠
          readWord (writeWord (fun _ => 0) (0 : UWORD).toNat (BitVec.intMin 64))
            (0 : UWORD).toNat := by
        rw [readWord_writeWord, readWord_writeWord]
        decide
      obtain ⟨text, text', hfirst, hsecond, htexts⟩ := h.pointer htop (Nat.lt_succ_self _) 0 0 _ _ hne
      rw [htext (Nat.lt_succ_self _), readWord_writeWord] at hfirst hsecond
      by_contra hsize
      rw [not_or] at hsize
      rw [decodeBase_narrow types hencoding hsize.1 hsize.2, hsecond] at hfirst
      exact htexts (Option.some_inj.mp hfirst).symm
    · exact .inl htop
  · intro h
    refine ⟨fun hother _ hfuel hfuel' addr => ?_, fun htop fuel hfuel addr addr' mem mem' hne => ?_⟩
    · rw [hother.hasBaseType.sprintVariableDieVal_eq hfuel',
        hchain.hasBaseType.sprintVariableDieVal_eq hfuel]
    · have hword := decodeBase_word types hencoding hsigned (h.resolve_left (not_not.mpr htop))
      refine ⟨_, _, (htext hfuel addr mem).trans (congrArg DwRes.value? (hword _)),
        (htext hfuel addr' mem').trans (congrArg DwRes.value? (hword _)), fun heq => hne ?_⟩
      exact integerValue_word_injective signed (decimal_injective heq)

-- A `const` pointer at 0x40 to the unsigned type of so many bytes.
def pointerTypes (byteSize : UWORD) : TypeEnv where
  typeOffset _ := .ok 0x40
  offdie offset :=
    if offset = 0x40 then .ok ⟨.ok .DW_TAG_const_type, .ok 0x50, .noEntry, .noEntry, []⟩
    else if offset = 0x50 then .ok ⟨.ok .DW_TAG_pointer_type, .ok 0x60, .noEntry, .noEntry, []⟩
    else .ok (unsignedType byteSize)
  formatDouble _ := []
  undefLocation _ := ⟨.noEntry, .noEntry⟩
  fuel := 8

def constPointer : List TypeTag := [.DW_TAG_const_type, .DW_TAG_pointer_type]

theorem constPointer_onTop : PointerOnTop constPointer :=
  ⟨[.DW_TAG_const_type], .DW_TAG_pointer_type, [], rfl, by decide, rfl⟩

theorem pointerTypes_chain (byteSize : UWORD) :
    TypeChain (pointerTypes byteSize) constPointer (.ok 0x40) (unsignedType byteSize) :=
  .modifier rfl rfl rfl (.modifier rfl rfl rfl (.base rfl rfl))

theorem pointer_to_word :
    PointerText nopEnv implicitVarEnv (pointerTypes 8) constPointer (.ok 0x40) (unsignedType 8)
      (atPrompt (fun _ => 0) 0x2000) :=
  (pointer_text_iff nopEnv implicitVarEnv (pointerTypes_chain 8) rfl rfl rfl).mpr
    (.inr (.inr rfl))

-- Two pointers to four bytes that differ in their upper halves.
theorem pointer_to_int :
    (∀ pointer ∈ [0x5, 0x7fff00000005],
      printedText nopEnv implicitVarEnv (pointerTypes 4) 8 (.ok 0x40) 0x3000
        (atPrompt (fun _ => 0) 0x2000) (writeWord (fun _ => 0) (0x3000 : UWORD).toNat pointer) =
          some "5".toList) ∧
      ¬PointerText nopEnv implicitVarEnv (pointerTypes 4) constPointer (.ok 0x40)
        (unsignedType 4) (atPrompt (fun _ => 0) 0x2000) := by
  have htext (pointer : UWORD) :=
    (pointerTypes_chain 4).printedText_eq (by decide : 2 < 8) nopEnv implicitVarEnv
      (s := atPrompt (fun _ => 0) 0x2000) rfl 0x3000
      (writeWord (fun _ => 0) (0x3000 : UWORD).toNat pointer)
  simp only [readWord_writeWord] at htext
  have hfive : (decodeBase (pointerTypes 4) (unsignedType 4) 0x5).value? = some "5".toList := by
    decide +kernel
  have hupper : (decodeBase (pointerTypes 4) (unsignedType 4) 0x7fff00000005).value? =
      some "5".toList := by
    decide +kernel
  refine ⟨fun pointer hpointer => ?_, fun h => ?_⟩
  · rcases List.mem_pair.mp hpointer with rfl | rfl
    · exact (htext _).trans hfive
    · exact (htext _).trans hupper
  · have hne : readWord (writeWord (fun _ => 0) (0x3000 : UWORD).toNat 0x5) (0x3000 : UWORD).toNat ≠
        readWord (writeWord (fun _ => 0) (0x3000 : UWORD).toNat 0x7fff00000005)
          (0x3000 : UWORD).toNat := by
      rw [readWord_writeWord, readWord_writeWord]
      decide
    obtain ⟨text, text', hfirst, hsecond, htexts⟩ :=
      h.pointer constPointer_onTop (by decide : 2 < 8) 0x3000 0x3000 _ _ hne
    rw [htext, hfive] at hfirst
    rw [htext, hupper] at hsecond
    exact htexts (Option.some_inj.mp (hfirst.symm.trans hsecond))

end Pointers

end VDebugger
