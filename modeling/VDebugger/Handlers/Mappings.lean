import VDebugger.Handlers.Printed

namespace VDebugger

open Machine HandlerM

def NUM_REGISTERS : Nat := 27

-- The loop of `load_DW_mappings` with so many rows of the two arrays left: the rows that it
-- fills. `none` where it leaves the string, an abbreviation or the arrays.
def loadDWMappings : Nat → CString → Option (List (CString × Int))
  | _, [] => some []
  | 0, _ :: _ => none
  | rows + 1, c :: dat =>
      let buffer := (c :: dat).takeWhile (· ≠ ',')
      match (c :: dat).dropWhile (· ≠ ',') with
      | [] => none
      | _ :: numeral =>
          if buffer.length < 12 then
            let (n, dat) := parseNumber 10 numeral
            (loadDWMappings rows dat).map ((buffer, ((BitVec.ofInt 64 n).setWidth 32).toInt) :: ·)
          else none

-- `dat`
def mappingsData : CString :=
  ["r15,15", "r14,14", "r13,13", "r12,12", "rbp,6", "rbx,3", "r11,11", "r10,10", "r9,9", "r8,8",
    "rax,0", "rcx,2", "rdx,1", "rsi,4", "rdi,5", "orig_rax,-1", "rip,-1", "cs,51", "eflags,49",
    "rsp,7", "ss,52", "fs_base,58", "gs_base,59", "ds,53", "es,50", "fs,54",
    "gs,55"].flatMap String.toList

section Encode

variable {rows : List (CString × Int)} {name dat : CString} {room : Nat} {n : Int}

-- A table in the format that the loop reads.
def encodeMappings (rows : List (CString × Int)) : CString :=
  rows.flatMap fun row => row.1 ++ ',' :: decimal row.2

-- A row that finds room, and behind whose number the next row does not go on with a digit.
def Loadable : List (CString × Int) → Prop
  | [] => True
  | (name, n) :: rows =>
      (name.length < 12 ∧ ',' ∉ name) ∧ (-2 ^ 31 ≤ n ∧ n < 2 ^ 31) ∧
        (∀ c ∈ (encodeMappings rows).head?, 10 ≤ digitValue c) ∧ Loadable rows

theorem encodeMappings_cons (name : CString) (n : Int) (rows : List (CString × Int)) :
    encodeMappings ((name, n) :: rows) = name ++ ',' :: (decimal n ++ encodeMappings rows) := by
  simp [encodeMappings]

theorem takeWhile_stop {stop : Char} {text : CString} (h : stop ∉ text) (rest : CString) :
    (text ++ stop :: rest).takeWhile (· ≠ stop) = text ∧
      (text ++ stop :: rest).dropWhile (· ≠ stop) = stop :: rest := by
  have hall : ∀ c ∈ text, decide (c ≠ stop) = true := fun c hmem =>
    decide_eq_true fun heq => h (heq ▸ hmem)
  rw [List.takeWhile_append_of_pos hall, List.dropWhile_append_of_pos hall]
  simp

theorem int_of_decimal (hlow : -2 ^ 31 ≤ n) (hhigh : n < 2 ^ 31) :
    ((BitVec.ofInt 64 n).setWidth 32).toInt = n := by
  rw [BitVec.toInt_setWidth, BitVec.toNat_ofInt, Int.bmod_def]
  omega

theorem loadDWMappings_of_loadable (hroom : rows.length ≤ room) (h : Loadable rows) :
    loadDWMappings room (encodeMappings rows) = some rows := by
  induction rows generalizing room with
  | nil => rw [encodeMappings, List.flatMap_nil, loadDWMappings]
  | cons row rows ih =>
      obtain ⟨name, n⟩ := row
      obtain ⟨⟨hshort, hcomma⟩, ⟨hlow, hhigh⟩, hstop, hrows⟩ := h
      rw [List.length_cons] at hroom
      obtain ⟨room, rfl⟩ : ∃ r, room = r + 1 := ⟨room - 1, by omega⟩
      obtain ⟨htake, hdrop⟩ := takeWhile_stop hcomma (decimal n ++ encodeMappings rows)
      have hread : parseNumber 10 (decimal n ++ encodeMappings rows) = _ :=
        parseNumber_decimal (by omega) (by omega) hstop
      rw [encodeMappings_cons]
      cases hdat : name ++ ',' :: (decimal n ++ encodeMappings rows) with
      | nil => simp at hdat
      | cons c dat =>
          rw [hdat] at htake hdrop
          rw [loadDWMappings, htake, hdrop]
          dsimp only
          rw [if_pos hshort, hread]
          dsimp only
          rw [ih (by omega) hrows, int_of_decimal hlow hhigh]
          rfl

-- Digits are taken off the front, before or behind the cut at the comma.
theorem takeWhile_dropWhile_digits (dat : CString) :
    (dat.dropWhile fun c => decide (digitValue c < 10)).takeWhile (· ≠ ',') =
      (dat.takeWhile (· ≠ ',')).dropWhile fun c => decide (digitValue c < 10) := by
  induction dat with
  | nil => rfl
  | cons c dat ih =>
      by_cases hdigit : digitValue c < 10
      · have hcomma : c ≠ ',' := by
          rintro rfl
          exact absurd hdigit (by decide)
        rw [List.dropWhile_cons_of_pos (by simpa using hdigit),
          List.takeWhile_cons_of_pos (by simpa using hcomma),
          List.dropWhile_cons_of_pos (by simpa using hdigit), ih]
      · rw [List.dropWhile_cons_of_neg (by simpa using hdigit)]
        by_cases hcomma : c = ','
        · rw [List.takeWhile_cons_of_neg (by simpa using hcomma)]
          rfl
        · rw [List.takeWhile_cons_of_pos (by simpa using hcomma),
            List.dropWhile_cons_of_neg (by simpa using hdigit)]

theorem parseDigits_append (n : Nat) (rest : CString) :
    parseDigits 10 (Nat.toDigits 10 n ++ rest) =
      some (numberOf 10 (Nat.toDigits 10 n ++ rest.takeWhile fun c => decide (digitValue c < 10)),
        rest.dropWhile fun c => decide (digitValue c < 10)) := by
  have hdigits := (toDigits_digits (show 1 < 10 by decide) (by decide) n).1
  have hsplit := List.takeWhile_append_dropWhile (p := fun c => decide (digitValue c < 10)) (l := rest)
  have hmore : ∀ c ∈ rest.takeWhile (fun c => decide (digitValue c < 10)), digitValue c < 10 :=
    fun c hmem => by simpa using List.mem_takeWhile_imp hmem
  have hstop : ∀ c ∈ (rest.dropWhile fun c => decide (digitValue c < 10)).head?,
      10 ≤ digitValue c := by
    intro c hmem
    have hnot := List.head?_dropWhile_not (fun c => decide (digitValue c < 10)) rest
    rw [hmem] at hnot
    simpa using hnot
  have hread : parseDigits 10 ((Nat.toDigits 10 n ++
      rest.takeWhile fun c => decide (digitValue c < 10)) ++ _) = some (_, _) := parseDigits_stop
    (by simp [Nat.toDigits_ne_nil])
    (fun c hmem => (List.mem_append.mp hmem).elim (hdigits c) (hmore c)) hstop
    (withoutPrefix_decimal _)
  rwa [List.append_assoc, hsplit] at hread

theorem parseNumber_decimal_rest (n : Int) (rest : CString) :
    (parseNumber 10 (decimal n ++ rest)).2 = rest.dropWhile fun c => decide (digitValue c < 10) := by
  have hsign : (signOf (decimal n ++ rest)).2 = Nat.toDigits 10 n.natAbs ++ rest := by
    unfold decimal
    split_ifs
    · have hspace : ('-' :: (Nat.toDigits 10 n.natAbs ++ rest)).dropWhile isSpace =
          '-' :: (Nat.toDigits 10 n.natAbs ++ rest) := List.dropWhile_cons_of_neg (by decide)
      simp only [signOf, List.cons_append, hspace]
    · rw [signOf_digits Nat.toDigits_ne_nil (toDigits_small (by decide) (by decide))]
  rw [parseNumber_eq, hsign, parseDigits_append]

-- The first row that comes back is what stands in front of the first comma.
theorem loadDWMappings_head {dat : CString} {row : CString × Int}
    (h : loadDWMappings room dat = some (row :: rows)) :
    ∃ numeral, dat.takeWhile (· ≠ ',') = row.1 ∧ dat.dropWhile (· ≠ ',') = ',' :: numeral ∧
      row.1.length < 12 ∧ row.2 = ((BitVec.ofInt 64 (parseNumber 10 numeral).1).setWidth 32).toInt ∧
      ∃ left, room = left + 1 ∧ loadDWMappings left (parseNumber 10 numeral).2 = some rows := by
  cases dat with
  | nil =>
      rw [loadDWMappings] at h
      cases h
  | cons c dat =>
      cases room with
      | zero =>
          rw [loadDWMappings] at h
          cases h
      | succ left =>
          rw [loadDWMappings] at h
          dsimp only at h
          split at h
          · cases h
          · next comma numeral hdrop =>
              have hcomma : comma = ',' := by
                have hnot := List.head?_dropWhile_not (fun c => decide (c ≠ ',')) (c :: dat)
                rw [hdrop] at hnot
                simpa using hnot
              split_ifs at h with hshort
              obtain ⟨others, hothers, heq⟩ := Option.map_eq_some_iff.mp h
              obtain ⟨hrow, rfl⟩ := List.cons.inj heq
              rw [← hrow]
              exact ⟨numeral, rfl, hcomma ▸ hdrop, hshort, rfl, left, rfl, hothers⟩

theorem takeWhile_comma_length (name rest : CString) :
    ((name ++ ',' :: rest).takeWhile (· ≠ ',')).length ≤ name.length := by
  induction name with
  | nil => simp
  | cons c name ih =>
      rw [List.cons_append]
      by_cases hcomma : c = ','
      · rw [List.takeWhile_cons_of_neg (by simpa using hcomma)]
        exact Nat.zero_le _
      · rw [List.takeWhile_cons_of_pos (by simpa using hcomma)]
        exact Nat.succ_le_succ ih

theorem dropWhile_digit_length {c : Char} (hhead : c ∈ dat.head?) (hdigit : digitValue c < 10) :
    ((dat.takeWhile (· ≠ ',')).dropWhile fun c => decide (digitValue c < 10)).length <
      (dat.takeWhile (· ≠ ',')).length := by
  cases dat with
  | nil => cases hhead
  | cons first dat =>
      obtain rfl : first = c := Option.some.inj hhead
      have hcomma : first ≠ ',' := by
        rintro rfl
        exact absurd hdigit (by decide)
      rw [List.takeWhile_cons_of_pos (by simpa using hcomma),
        List.dropWhile_cons_of_pos (by simpa using hdigit), List.length_cons]
      exact Nat.lt_succ_of_le (List.length_dropWhile_le _ _)

theorem loadable_of_loadDWMappings (h : loadDWMappings room (encodeMappings rows) = some rows) :
    rows.length ≤ room ∧ Loadable rows := by
  induction rows generalizing room with
  | nil => exact ⟨Nat.zero_le _, trivial⟩
  | cons row rows ih =>
      obtain ⟨name, n⟩ := row
      rw [encodeMappings_cons] at h
      obtain ⟨numeral, htake, hdrop, hshort, hn, left, rfl, hrest⟩ := loadDWMappings_head h
      dsimp only at htake hshort hn
      have hcomma : ',' ∉ name := by
        intro hmem
        rw [← htake] at hmem
        have hnot := List.mem_takeWhile_imp hmem
        simp at hnot
      obtain ⟨-, hnumeral⟩ := takeWhile_stop hcomma (decimal n ++ encodeMappings rows)
      obtain rfl : decimal n ++ encodeMappings rows = numeral :=
        (List.cons.inj (hnumeral.symm.trans hdrop)).2
      rw [parseNumber_decimal_rest] at hrest
      -- A digit in front of the next row would be lost from its abbreviation.
      have hstop : ∀ c ∈ (encodeMappings rows).head?, 10 ≤ digitValue c := by
        intro c hhead
        by_contra hdigit
        cases rows with
        | nil => simp [encodeMappings] at hhead
        | cons next rows =>
            obtain ⟨other, m⟩ := next
            obtain ⟨numeral, hname, -⟩ := loadDWMappings_head hrest
            rw [takeWhile_dropWhile_digits] at hname
            have hlost := dropWhile_digit_length hhead (Nat.lt_of_not_le hdigit)
            have hcut := takeWhile_comma_length other (decimal m ++ encodeMappings rows)
            rw [← encodeMappings_cons] at hcut
            rw [hname] at hlost
            exact absurd hlost (Nat.not_lt.mpr hcut)
      have hsame : (encodeMappings rows).dropWhile (fun c => decide (digitValue c < 10)) =
          encodeMappings rows := by
        cases hrows : encodeMappings rows with
        | nil => rfl
        | cons c dat =>
            rw [hrows] at hstop
            exact List.dropWhile_cons_of_neg (by simpa using hstop c rfl)
      obtain ⟨hroom, hrows⟩ := ih (hsame ▸ hrest)
      have hlow := BitVec.le_toInt
        ((BitVec.ofInt 64 (parseNumber 10 (decimal n ++ encodeMappings rows)).1).setWidth 32)
      have hhigh := BitVec.toInt_lt (x :=
        ((BitVec.ofInt 64 (parseNumber 10 (decimal n ++ encodeMappings rows)).1).setWidth 32))
      refine ⟨by rw [List.length_cons]; omega, ⟨hshort, hcomma⟩, ?_, hstop, hrows⟩
      omega

-- The format gives a table back just where its rows find room and no abbreviation behind a
-- number begins with a digit.
theorem loadDWMappings_encode_iff (room : Nat) (rows : List (CString × Int)) :
    loadDWMappings room (encodeMappings rows) = some rows ↔ rows.length ≤ room ∧ Loadable rows :=
  ⟨loadable_of_loadDWMappings, fun h => loadDWMappings_of_loadable h.1 h.2⟩

end Encode

section Table

variable {rows : List (CString × Int)}

-- Names that start with no digit, and numbers of two digits.
theorem loadable_of_small (h : ∀ row ∈ rows, (row.1.length < 12 ∧ ',' ∉ row.1) ∧
    row.2.natAbs < 100 ∧ row.1 ≠ [] ∧ row.1.head?.all (10 ≤ digitValue ·) = true) :
    Loadable rows := by
  induction rows with
  | nil => trivial
  | cons row rows ih =>
      obtain ⟨name, n⟩ := row
      obtain ⟨hname, hsmall, -, -⟩ := h _ List.mem_cons_self
      have hsmall : n.natAbs < 100 := hsmall
      have hrows := ih fun row hmem => h row (List.mem_cons_of_mem _ hmem)
      refine ⟨hname, ⟨by omega, by omega⟩, ?_, hrows⟩
      cases rows with
      | nil => exact fun c hmem => nomatch hmem
      | cons next rows =>
          obtain ⟨-, -, hne, hhead⟩ := h next (List.mem_cons_of_mem _ List.mem_cons_self)
          obtain ⟨other, value⟩ := next
          rw [encodeMappings_cons, List.head?_append_of_ne_nil _ hne]
          intro c hmem
          have hhead : other.head?.all (10 ≤ digitValue ·) = true := hhead
          rw [Option.all_eq_true] at hhead
          exact of_decide_eq_true (hhead c hmem)

-- What the two arrays hold behind `load_DW_mappings`.
theorem loadDWMappings_data :
    loadDWMappings NUM_REGISTERS mappingsData = some (registerAbbr.zip DWARFMappings) := by
  have hdata : mappingsData = encodeMappings (registerAbbr.zip DWARFMappings) := by
    decide +kernel
  rw [hdata]
  exact loadDWMappings_of_loadable (by decide) (loadable_of_small (by decide +kernel))

end Table

section Print

variable {regs other : RegsStruct}

-- `%-12s:%llx\n`
def registerLine (abbr : CString) (value : UWORD) : CString :=
  abbr ++ List.replicate (12 - abbr.length) ' ' ++ ':' :: (formatHex value ++ ['\n'])

-- `print_registers`, which `reg read a` ends with.
def printRegisters (regs : RegsStruct) : CString :=
  (registerAbbr.zip REGISTER.all).flatMap fun row => registerLine row.1 (regs.get row.2)

theorem formatHex_injective : Function.Injective formatHex := by
  intro data other h
  have hnumber := congrArg (numberOf 16) h
  unfold formatHex at hnumber
  rw [(toDigits_digits (by decide) (by decide) data.toNat).2,
    (toDigits_digits (by decide) (by decide) other.toNat).2] at hnumber
  exact BitVec.eq_of_toNat_eq hnumber

theorem newline_notMem_formatHex (data : UWORD) : '\n' ∉ formatHex data := fun h =>
  absurd ((toDigits_digits (show 1 < 16 by decide) (by decide) data.toNat).1 _ h) (by decide)

-- Each line ends where its value does.
theorem registerLine_append_inj {abbr rest rest' : CString} {value value' : UWORD}
    (h : registerLine abbr value ++ rest = registerLine abbr value' ++ rest') :
    value = value' ∧ rest = rest' := by
  simp only [registerLine, List.append_assoc, List.append_cancel_left_eq, List.cons_append,
    List.cons.injEq, true_and, List.nil_append] at h
  obtain ⟨htake, hdrop⟩ := takeWhile_stop (newline_notMem_formatHex value) rest
  obtain ⟨htake', hdrop'⟩ := takeWhile_stop (newline_notMem_formatHex value') rest'
  rw [h] at htake hdrop
  exact ⟨formatHex_injective (htake.symm.trans htake'),
    (List.cons.inj (hdrop.symm.trans hdrop')).2⟩

theorem lines_tell (rows : List (CString × REGISTER))
    (h : (rows.flatMap fun row => registerLine row.1 (regs.get row.2)) =
      rows.flatMap fun row => registerLine row.1 (other.get row.2)) :
    ∀ row ∈ rows, regs.get row.2 = other.get row.2 := by
  induction rows with
  | nil => exact fun row hmem => nomatch hmem
  | cons row rows ih =>
      rw [List.flatMap_cons, List.flatMap_cons] at h
      obtain ⟨hvalue, hrest⟩ := registerLine_append_inj h
      intro found hmem
      rcases List.mem_cons.mp hmem with rfl | hmem
      · exact hvalue
      · exact ih hrest found hmem

theorem RegsStruct.eq_of_get (h : ∀ reg, regs.get reg = other.get reg) : regs = other := by
  cases regs
  cases other
  rw [RegsStruct.mk.injEq]
  exact ⟨h .r15, h .r14, h .r13, h .r12, h .rbp, h .rbx, h .r11, h .r10, h .r9, h .r8, h .rax,
    h .rcx, h .rdx, h .rsi, h .rdi, h .orig_rax, h .rip, h .cs, h .eflags, h .rsp, h .ss,
    h .fs_base, h .gs_base, h .ds, h .es, h .fs, h .gs⟩

-- No register is left out, and no value is printed as another one is.
theorem printRegisters_injective : Function.Injective printRegisters := by
  intro regs other h
  have htell := lines_tell _ h
  have hall : ∀ reg, ∃ abbr, (abbr, reg) ∈ registerAbbr.zip REGISTER.all := by
    intro reg
    have hsecond : (registerAbbr.zip REGISTER.all).map Prod.snd = REGISTER.all := by decide
    have hmem : reg ∈ REGISTER.all := by cases reg <;> decide
    rw [← hsecond] at hmem
    obtain ⟨⟨abbr, _⟩, hrow, rfl⟩ := List.mem_map.mp hmem
    exact ⟨abbr, hrow⟩
  exact RegsStruct.eq_of_get fun reg => (hall reg).elim fun abbr hmem => htell (abbr, reg) hmem

end Print

end VDebugger
