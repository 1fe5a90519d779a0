import VDebugger.DwarfInfo.Lines
import Mathlib.Order.Bounds.Basic

namespace VDebugger

open Machine

variable {rows : List LineRow} {addrOffset : UWORD} {low high : Int} {reads : List Int}
  {res : DwRes Int}

-- `dwarf_lineaddr` of the row at an index. Outside of the table there is no row to ask.
def lineAddrAt (rows : List LineRow) (index : Int) : DwRes UWORD :=
  match rows[index.toNat]? with
  | none => .error
  | some row => row.lineaddr

-- The loop of `search_addr_in_lines` from these bounds to its end: the indices it reads,
-- and what it ends with.
inductive SearchRun (rows : List LineRow) (addrOffset : UWORD) :
    Int → Int → List Int → DwRes Int → Prop
  | done {low high : Int} (h : high < low) : SearchRun rows addrOffset low high [] (.ok high)
  | noEntry {low high : Int} (h : low ≤ high)
      (here : lineAddrAt rows ((low + high) / 2) = .noEntry) :
      SearchRun rows addrOffset low high [(low + high) / 2] .noEntry
  | error {low high : Int} (h : low ≤ high) (here : lineAddrAt rows ((low + high) / 2) = .error) :
      SearchRun rows addrOffset low high [(low + high) / 2] .error
  | lower {low high : Int} {a : UWORD} {reads : List Int} {res : DwRes Int} (h : low ≤ high)
      (here : lineAddrAt rows ((low + high) / 2) = .ok a) (hafter : addrOffset < a)
      (rest : SearchRun rows addrOffset low ((low + high) / 2 - 1) reads res) :
      SearchRun rows addrOffset low high ((low + high) / 2 :: reads) res
  | upper {low high : Int} {a : UWORD} {reads : List Int} {res : DwRes Int} (h : low ≤ high)
      (here : lineAddrAt rows ((low + high) / 2) = .ok a) (hafter : ¬addrOffset < a)
      (rest : SearchRun rows addrOffset ((low + high) / 2 + 1) high reads res) :
      SearchRun rows addrOffset low high ((low + high) / 2 :: reads) res

-- Each pass leaves out the index it reads, so that there are no more passes than indices.
theorem exists_searchRun (rows : List LineRow) (addrOffset : UWORD) (count : Nat) (low high : Int)
    (hcount : high - low + 1 ≤ count) :
    ∃ reads res, SearchRun rows addrOffset low high reads res ∧ reads.length ≤ count := by
  induction count generalizing low high with
  | zero => exact ⟨[], .ok high, .done (by omega), Nat.le_refl 0⟩
  | succ count ih =>
      by_cases hgo : low ≤ high
      · cases here : lineAddrAt rows ((low + high) / 2) with
        | noEntry => exact ⟨_, _, .noEntry hgo here, by simp⟩
        | error => exact ⟨_, _, .error hgo here, by simp⟩
        | ok a =>
            by_cases hafter : addrOffset < a
            · obtain ⟨reads, res, hrun, hlength⟩ := ih low ((low + high) / 2 - 1) (by omega)
              exact ⟨_, res, .lower hgo here hafter hrun, by simpa using hlength⟩
            · obtain ⟨reads, res, hrun, hlength⟩ := ih ((low + high) / 2 + 1) high (by omega)
              exact ⟨_, res, .upper hgo here hafter hrun, by simpa using hlength⟩
      · exact ⟨[], .ok high, .done (by omega), by simp⟩

-- The reads lie between the bounds, whatever the rows say.
theorem SearchRun.reads_between (h : SearchRun rows addrOffset low high reads res) :
    ∀ index ∈ reads, low ≤ index ∧ index ≤ high := by
  induction h with
  | done => simp
  | noEntry | error =>
      simp only [List.mem_singleton, forall_eq]
      omega
  | lower hgo _ _ _ ih =>
      intro index hmem
      rcases List.mem_cons.mp hmem with rfl | hmem
      · omega
      · have hrest := ih index hmem
        omega
  | upper hgo _ _ _ ih =>
      intro index hmem
      rcases List.mem_cons.mp hmem with rfl | hmem
      · omega
      · have hrest := ih index hmem
        omega

-- The bounds never cross by more than one.
theorem SearchRun.result_between (h : SearchRun rows addrOffset low high reads res) {last : Int}
    (hres : res = .ok last) (hle : low ≤ high + 1) : low - 1 ≤ last ∧ last ≤ high := by
  induction h with
  | done hcross =>
      obtain rfl := DwRes.ok.inj hres
      omega
  | noEntry => cases hres
  | error => cases hres
  | lower hgo _ _ _ ih =>
      have hrest := ih hres (by omega)
      omega
  | upper hgo _ _ _ ih =>
      have hrest := ih hres (by omega)
      omega

theorem searchLoop_end (passes : Nat) (h : high < low) :
    searchLoop rows addrOffset passes low high = .ok high := by
  cases passes with
  | zero => rfl
  | succ passes =>
      unfold searchLoop
      rw [if_neg (by omega)]

theorem searchLoop_more (passes : Nat) (h : low ≤ high) :
    searchLoop rows addrOffset (passes + 1) low high =
      match lineAddrAt rows ((low + high) / 2) with
      | .noEntry => .noEntry
      | .error => .error
      | .ok lineAddr =>
          if lineAddr > addrOffset then
            searchLoop rows addrOffset passes low ((low + high) / 2 - 1)
          else searchLoop rows addrOffset passes ((low + high) / 2 + 1) high := by
  rw [searchLoop, if_pos h]
  unfold lineAddrAt
  dsimp only
  cases rows[((low + high) / 2).toNat]? with
  | none => rfl
  | some row => rfl

-- Any number of passes that is large enough shows the whole loop.
theorem SearchRun.searchLoop_eq (h : SearchRun rows addrOffset low high reads res) {passes : Nat}
    (hpasses : reads.length ≤ passes) : searchLoop rows addrOffset passes low high = res := by
  induction h generalizing passes with
  | done hcross => exact searchLoop_end passes hcross
  | noEntry hgo here | error hgo here =>
      obtain ⟨passes, rfl⟩ : ∃ n, passes = n + 1 := ⟨passes - 1, by simp at hpasses; omega⟩
      rw [searchLoop_more passes hgo, here]
  | lower hgo here hafter _ ih =>
      rw [List.length_cons] at hpasses
      obtain ⟨passes, rfl⟩ : ∃ n, passes = n + 1 := ⟨passes - 1, by omega⟩
      rw [searchLoop_more passes hgo, here]
      exact (if_pos hafter).trans (ih (by omega))
  | upper hgo here hafter _ ih =>
      rw [List.length_cons] at hpasses
      obtain ⟨passes, rfl⟩ : ∃ n, passes = n + 1 := ⟨passes - 1, by omega⟩
      rw [searchLoop_more passes hgo, here]
      exact (if_neg hafter).trans (ih (by omega))

-- The rows at or before an address.
def rowsUpTo (rows : List LineRow) (addrOffset : UWORD) : Set Nat :=
  { i | ∃ row a, rows[i]? = some row ∧ row.lineaddr = .ok a ∧ a ≤ addrOffset }

-- What the search gives once the loop has split a sorted table.
theorem searchAddrInLines_sorted (h : AddrsSorted rows) (addrOffset : UWORD) :
    (∃ i, searchAddrInLines ⟨rows⟩ addrOffset = .ok i ∧ IsGreatest (rowsUpTo rows addrOffset) i) ∨
      searchAddrInLines ⟨rows⟩ addrOffset = .noEntry ∧ rowsUpTo rows addrOffset = ∅ := by
  have hpasses : ((rows.length : Int) - 1) - 0 + 1 ≤ rows.length := by omega
  obtain ⟨last, hsearch, hsplit⟩ := searchLoop_splits h (SplitsAt.whole rows addrOffset) hpasses
  have hbefore (i : Nat) (hi : i ∈ rowsUpTo rows addrOffset) : (i : Int) ≤ last := by
    obtain ⟨row, a, hrow, ha, hle⟩ := hi
    by_contra hgt
    have hafter := hsplit.above i (by omega) row a hrow ha
    have hle : a.toNat ≤ addrOffset.toNat := hle
    omega
  have hlt := hsplit.high_lt
  unfold searchAddrInLines
  simp only [hsearch]
  by_cases hneg : last < 0
  · right
    refine ⟨if_pos hneg, Set.eq_empty_of_forall_notMem fun i hi => ?_⟩
    have hle := hbefore i hi
    omega
  · left
    obtain ⟨i, rfl⟩ : ∃ i : Nat, last = i := ⟨last.toNat, by omega⟩
    obtain ⟨row, a, hrow, ha⟩ := h.row_at (i := i) (by omega)
    refine ⟨i, if_neg hneg, ⟨row, a, hrow, ha, ?_⟩, fun j hj => ?_⟩
    · exact hsplit.below i (by omega) row a hrow ha
    · have hle := hbefore j hj
      omega

theorem searchAddrInLines_eq_ok_iff (h : AddrsSorted rows) {i : Nat} :
    searchAddrInLines ⟨rows⟩ addrOffset = .ok i ↔ IsGreatest (rowsUpTo rows addrOffset) i := by
  rcases searchAddrInLines_sorted h addrOffset with ⟨j, hsearch, hgreatest⟩ | ⟨hsearch, hempty⟩
  · rw [hsearch, DwRes.ok.injEq]
    constructor
    · rintro rfl
      exact hgreatest
    · exact hgreatest.unique
  · rw [hsearch, hempty]
    exact iff_of_false (fun hok => nomatch hok) fun hnone => hnone.1

theorem searchAddrInLines_eq_noEntry_iff (h : AddrsSorted rows) :
    searchAddrInLines ⟨rows⟩ addrOffset = .noEntry ↔
      ∀ row ∈ rows, ∀ a, row.lineaddr = .ok a → addrOffset < a := by
  rcases searchAddrInLines_sorted h addrOffset with ⟨j, hsearch, hgreatest⟩ | ⟨hsearch, hempty⟩
  · rw [hsearch]
    obtain ⟨row, a, hrow, ha, hle⟩ := hgreatest.1
    refine iff_of_false (fun hno => nomatch hno) fun hafter => ?_
    have hlt := hafter row (List.mem_of_getElem? hrow) a ha
    bv_omega
  · refine iff_of_true hsearch fun row hmem a ha => ?_
    obtain ⟨i, hrow⟩ := List.mem_iff_getElem?.mp hmem
    by_contra hnot
    have hle : a ≤ addrOffset := BitVec.not_lt.mp hnot
    have hmem : i ∈ rowsUpTo rows addrOffset := ⟨row, a, hrow, ha, hle⟩
    rw [hempty] at hmem
    exact hmem

-- The loop ends on every table and stays inside of it. On a sorted one it finds the last
-- row at or before the address.
theorem search_last_row (rows : List LineRow) (addrOffset : UWORD) :
    (∃ reads res, SearchRun rows addrOffset 0 ((rows.length : Int) - 1) reads res ∧
        reads.length ≤ rows.length ∧ (∀ index ∈ reads, 0 ≤ index ∧ index < rows.length) ∧
        ∀ passes, rows.length ≤ passes →
          searchLoop rows addrOffset passes 0 ((rows.length : Int) - 1) = res) ∧
      (∀ i, searchAddrInLines ⟨rows⟩ addrOffset = .ok i → i < rows.length) ∧
      (AddrsSorted rows →
        (∀ i, searchAddrInLines ⟨rows⟩ addrOffset = .ok i ↔
          IsGreatest (rowsUpTo rows addrOffset) i) ∧
        (searchAddrInLines ⟨rows⟩ addrOffset = .noEntry ↔
          ∀ row ∈ rows, ∀ a, row.lineaddr = .ok a → addrOffset < a)) := by
  obtain ⟨reads, res, hrun, hlength⟩ :=
    exists_searchRun rows addrOffset rows.length 0 ((rows.length : Int) - 1) (by omega)
  refine ⟨⟨reads, res, hrun, hlength, fun index hmem => ?_, fun passes hpasses => ?_⟩,
    fun i hi => ?_, fun hsorted => ⟨fun i => searchAddrInLines_eq_ok_iff hsorted,
      searchAddrInLines_eq_noEntry_iff hsorted⟩⟩
  · have hbetween := hrun.reads_between index hmem
    omega
  · exact hrun.searchLoop_eq (by omega)
  · have hloop := hrun.searchLoop_eq hlength
    unfold searchAddrInLines at hi
    simp only [hloop] at hi
    cases res with
    | noEntry => cases hi
    | error => cases hi
    | ok last =>
        have hbetween := hrun.result_between rfl (by omega)
        by_cases hneg : last < 0
        · simp [hneg] at hi
        · simp only [if_neg hneg, DwRes.ok.injEq] at hi
          omega

theorem search_between_rows :
    IsGreatest (rowsUpTo [printRow 0x1000 3, printRow 0x1004 4] 0x1002) 0 :=
  (((search_last_row [printRow 0x1000 3, printRow 0x1004 4] 0x1002).2.2
    (printRows_table (by decide)).addrsSorted).1 0).mp rfl

end VDebugger
