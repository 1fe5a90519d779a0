import VDebugger.DwarfInfo

namespace VDebugger

open Machine

variable {dbg : DwarfDebug} {rest : List CompUnit} {found : Option CompUnit}

-- Whether the unit has a low and a high pc and the address lies between them.
def CompUnit.coversAddr (addrOffset : WORD) (cu : CompUnit) : Bool :=
  match getLowHighPcFromDie cu.die with
  | .ok (low, high) => low.toNat ≤ addrOffset.toNat && addrOffset.toNat < high.toNat
  | _ => false

-- The path of the unit's source file, where the unit has a name and a directory.
def CompUnit.fullPath (cu : CompUnit) : Option CString :=
  match cu.die.attrs.name, cu.die.attrs.compDir with
  | .ok name, .ok dir => some (if name.head? = some '/' then name else dir ++ '/' :: name)
  | _, _ => none

def CompUnit.hasPath (path : CString) (cu : CompUnit) : Bool := cu.fullPath = some path

-- No call of the library on the unit gives DW_DLV_ERROR.
structure CompUnit.Readable (cu : CompUnit) : Prop where
  lowpc : cu.die.attrs.lowpc ≠ .error
  highpc : cu.die.attrs.highpc ≠ .error
  name : cu.die.attrs.name ≠ .error
  compDir : cu.die.attrs.compDir ≠ .error

theorem dieContainsAddrOffset_covers {cu : CompUnit} (h : cu.Readable) (addrOffset : WORD) :
    dieContainsAddrOffset addrOffset cu.die ≠ .error ∧
      (dieContainsAddrOffset addrOffset cu.die = .ok true ↔ cu.coversAddr addrOffset = true) := by
  have hlow := h.lowpc
  have hhigh := h.highpc
  unfold dieContainsAddrOffset CompUnit.coversAddr getLowHighPcFromDie
  cases hl : cu.die.attrs.lowpc with
  | noEntry => simp
  | error => exact absurd hl hlow
  | ok low =>
      cases hh : cu.die.attrs.highpc with
      | noEntry => simp
      | error => exact absurd hh hhigh
      | ok high =>
          refine ⟨fun herror => (nomatch herror), ?_⟩
          exact ⟨DwRes.ok.inj, congrArg DwRes.ok⟩

theorem getCuFromAddrLoop_eq (addrOffset : WORD) (hread : ∀ cu ∈ rest, cu.Readable) :
    getCuFromAddrLoop addrOffset dbg rest found =
      ((.noEntry, ((rest.filter fun cu => cu.coversAddr addrOffset).getLast?).or found),
        { dbg with cursor := 0 }) := by
  induction rest generalizing dbg found with
  | nil => rfl
  | cons cu rest ih =>
      obtain ⟨herror, hcovers⟩ := dieContainsAddrOffset_covers (hread cu List.mem_cons_self) addrOffset
      have hrest : ∀ cu ∈ rest, cu.Readable := fun cu hmem => hread cu (List.mem_cons_of_mem _ hmem)
      unfold getCuFromAddrLoop
      by_cases hit : cu.coversAddr addrOffset = true
      · rw [hcovers.mpr hit, List.filter_cons_of_pos hit, List.getLast?_cons]
        simp only [ih hrest]
        cases (rest.filter fun cu => cu.coversAddr addrOffset).getLast? <;> rfl
      · have hmiss : dieContainsAddrOffset addrOffset cu.die ≠ .ok true := fun h => hit (hcovers.mp h)
        rw [List.filter_cons_of_neg hit]
        cases hres : dieContainsAddrOffset addrOffset cu.die with
        | noEntry => exact ih hrest
        | error => exact absurd hres herror
        | ok contains =>
            cases contains with
            | true => exact absurd hres hmiss
            | false => exact ih hrest

-- An absolute name is compared without its first character, against no directory.
theorem checkPath_iff (path dir name : CString) :
    (if name.head? = some '/' then mergeAndCheckPath path [] name.tail
      else mergeAndCheckPath path dir name) = true ↔
      (if name.head? = some '/' then name else dir ++ '/' :: name) = path := by
  split
  · rename_i habsolute
    rw [mergeAndCheckPath_iff, List.nil_append, ← List.cons_head?_tail habsolute]
    exact eq_comm
  · rw [mergeAndCheckPath_iff]
    exact eq_comm

theorem getCuFromFileNameLoop_eq (path : CString) (hread : ∀ cu ∈ rest, cu.Readable) :
    getCuFromFileNameLoop path dbg rest found =
      (match ((rest.filter fun cu => cu.hasPath path).getLast?).or found with
        | some cu => .ok cu
        | none => .noEntry,
        { dbg with cursor := 0 }) := by
  induction rest generalizing dbg found with
  | nil => cases found <;> rfl
  | cons cu rest ih =>
      have hcu := hread cu List.mem_cons_self
      have hrest : ∀ cu ∈ rest, cu.Readable := fun cu hmem => hread cu (List.mem_cons_of_mem _ hmem)
      unfold getCuFromFileNameLoop
      cases hname : cu.die.attrs.name with
      | error => exact absurd hname hcu.name
      | noEntry =>
          have hmiss : ¬cu.hasPath path = true := by simp [CompUnit.hasPath, CompUnit.fullPath, hname]
          rw [List.filter_cons_of_neg hmiss]
          exact ih hrest
      | ok name =>
          cases hdir : cu.die.attrs.compDir with
          | error => exact absurd hdir hcu.compDir
          | noEntry =>
              have hmiss : ¬cu.hasPath path = true := by
                simp [CompUnit.hasPath, CompUnit.fullPath, hname, hdir]
              rw [List.filter_cons_of_neg hmiss]
              exact ih hrest
          | ok dir =>
              have hpath : cu.hasPath path = true ↔
                  (if name.head? = some '/' then mergeAndCheckPath path [] name.tail
                    else mergeAndCheckPath path dir name) = true := by
                rw [checkPath_iff]
                simp [CompUnit.hasPath, CompUnit.fullPath, hname, hdir]
              simp only [ih hrest]
              by_cases hit : cu.hasPath path = true
              · rw [if_pos (hpath.mp hit), List.filter_cons_of_pos hit, List.getLast?_cons]
                cases (rest.filter fun cu => cu.hasPath path).getLast? <;> rfl
              · rw [if_neg (fun h => hit (hpath.mpr h)), List.filter_cons_of_neg hit]

-- The two lookups by which the debugger comes to a unit.
inductive CuLookup where
  | fromAddr (addrOffset : WORD)
  | fromFileName (sourceFileName : CString)

def CuLookup.run (dbg : DwarfDebug) : CuLookup → DwarfDebug
  | .fromAddr addrOffset => (getCuFromAddr addrOffset dbg).2
  | .fromFileName sourceFileName => (getCuFromFileName sourceFileName dbg).2

-- Every lookup runs to the end of the units and so leaves the cursor at the first.
theorem CuLookup.run_eq {cus : List CompUnit} (hread : ∀ cu ∈ cus, cu.Readable) (lookup : CuLookup) :
    lookup.run ⟨cus, 0⟩ = ⟨cus, 0⟩ := by
  cases lookup with
  | fromAddr addrOffset => exact congrArg Prod.snd (getCuFromAddrLoop_eq addrOffset hread)
  | fromFileName path => exact congrArg Prod.snd (getCuFromFileNameLoop_eq path hread)

theorem CuLookup.foldl_run {cus : List CompUnit} (hread : ∀ cu ∈ cus, cu.Readable)
    (lookups : List CuLookup) : lookups.foldl CuLookup.run ⟨cus, 0⟩ = ⟨cus, 0⟩ := by
  induction lookups with
  | nil => rfl
  | cons lookup rest ih => rw [List.foldl_cons, lookup.run_eq hread, ih]

-- Whatever lookups came before, each finds the last unit that fits.
theorem lookups_independent {cus : List CompUnit} (hread : ∀ cu ∈ cus, cu.Readable)
    (lookups : List CuLookup) :
    (∀ addrOffset, (getCuFromAddr addrOffset (lookups.foldl CuLookup.run ⟨cus, 0⟩)).1.2 =
        (cus.filter fun cu => cu.coversAddr addrOffset).getLast?) ∧
      ∀ path, (getCuFromFileName path (lookups.foldl CuLookup.run ⟨cus, 0⟩)).1 =
        match (cus.filter fun cu => cu.hasPath path).getLast? with
        | some cu => .ok cu
        | none => .noEntry := by
  rw [CuLookup.foldl_run hread]
  constructor
  · intro addrOffset
    have h : getCuFromAddrLoop addrOffset ⟨cus, 0⟩ cus none = _ := getCuFromAddrLoop_eq addrOffset hread
    rw [Option.or_none] at h
    exact congrArg (fun r => r.1.2) h
  · intro path
    have h : getCuFromFileNameLoop path ⟨cus, 0⟩ cus none = _ := getCuFromFileNameLoop_eq path hread
    rw [Option.or_none] at h
    exact congrArg Prod.fst h

-- A unit of one source file with its line rows.
def sourceUnit (name : String) (lowPc size : UWORD) (rows : List LineRow) : CompUnit where
  die := .mk { tag := .DW_TAG_compile_unit, lowpc := .ok lowPc, highpc := .ok ⟨size, false⟩,
               name := .ok name.toList, compDir := .ok "/src".toList } []
  srclines := .ok 1
  linesFromContext := .ok rows

theorem lookups_two_units :
    (getCuFromFileName "/src/print.cpp".toList
      ([.fromAddr 0x1000, .fromFileName "/src/none.cpp".toList].foldl CuLookup.run
        ⟨[sourceUnit "print.cpp" 0x1000 0x80 [], sourceUnit "square.cpp" 0x1080 0x20 []], 0⟩)).1
      = .ok (sourceUnit "print.cpp" 0x1000 0x80 []) := by
  have hread : ∀ cu ∈ [sourceUnit "print.cpp" 0x1000 0x80 [], sourceUnit "square.cpp" 0x1080 0x20 []],
      cu.Readable := by
    intro cu hmem
    simp only [List.mem_cons, List.not_mem_nil, or_false] at hmem
    rcases hmem with rfl | rfl <;>
      exact ⟨fun h => (nomatch h), fun h => (nomatch h), fun h => (nomatch h), fun h => (nomatch h)⟩
  exact (lookups_independent hread _).2 _

end VDebugger
