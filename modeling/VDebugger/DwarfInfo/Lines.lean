import VDebugger.DwarfInfo.Units

namespace VDebugger

open Machine

variable {rows : List LineRow}

-- Every row has an address and a line number, and the addresses do not decrease.
structure LineTable (rows : List LineRow) : Prop where
  addr : ∀ row ∈ rows, ∃ a, row.lineaddr = .ok a
  line : ∀ row ∈ rows, ∃ n, row.lineno = .ok n
  sorted : ∀ (i j : Nat) (x y : LineRow) (a b : UWORD), i ≤ j → rows[i]? = some x →
    rows[j]? = some y → x.lineaddr = .ok a → y.lineaddr = .ok b → a.toNat ≤ b.toNat

-- The part of it that the search by address looks at.
structure AddrsSorted (rows : List LineRow) : Prop where
  addr : ∀ row ∈ rows, ∃ a, row.lineaddr = .ok a
  sorted : ∀ (i j : Nat) (x y : LineRow) (a b : UWORD), i ≤ j → rows[i]? = some x →
    rows[j]? = some y → x.lineaddr = .ok a → y.lineaddr = .ok b → a.toNat ≤ b.toNat

theorem LineTable.addrsSorted (h : LineTable rows) : AddrsSorted rows := ⟨h.addr, h.sorted⟩

-- The row at an index that the table has.
theorem AddrsSorted.row_at (h : AddrsSorted rows) {i : Nat} (hlt : i < rows.length) :
    ∃ row a, rows[i]? = some row ∧ row.lineaddr = .ok a := by
  obtain ⟨a, ha⟩ := h.addr rows[i] (List.getElem_mem hlt)
  exact ⟨rows[i], a, List.getElem?_eq_getElem hlt, ha⟩

-- The rows at and below `high` start at or before the address, those above it after it.
structure SplitsAt (rows : List LineRow) (addrOffset : UWORD) (low high : Int) : Prop where
  low_nonneg : 0 ≤ low
  low_le : low ≤ high + 1
  high_lt : high < rows.length
  below : ∀ i : Nat, (i : Int) < low → ∀ (row : LineRow) (a : UWORD), rows[i]? = some row →
    row.lineaddr = .ok a → a.toNat ≤ addrOffset.toNat
  above : ∀ i : Nat, high < i → ∀ (row : LineRow) (a : UWORD), rows[i]? = some row →
    row.lineaddr = .ok a → addrOffset.toNat < a.toNat

theorem SplitsAt.whole (rows : List LineRow) (addrOffset : UWORD) :
    SplitsAt rows addrOffset 0 (rows.length - 1) where
  low_nonneg := by omega
  low_le := by omega
  high_lt := by omega
  below i hi := by omega
  above i hi row a hrow := by
    have hlt := (List.getElem?_eq_some_iff.mp hrow).1
    omega

-- A pass looks at the row in the middle and leaves out the half it is in.
theorem searchLoop_splits (h : AddrsSorted rows) {addrOffset : UWORD} {passes : Nat} {low high : Int}
    (hsplit : SplitsAt rows addrOffset low high) (hpasses : high - low + 1 ≤ passes) :
    ∃ last, searchLoop rows addrOffset passes low high = .ok last ∧
      SplitsAt rows addrOffset (last + 1) last := by
  induction passes generalizing low high with
  | zero =>
      have hle := hsplit.low_le
      obtain rfl : low = high + 1 := by omega
      exact ⟨high, rfl, hsplit⟩
  | succ passes ih =>
      unfold searchLoop
      have hlow := hsplit.low_nonneg
      have hhigh := hsplit.high_lt
      by_cases hgo : low ≤ high
      · rw [if_pos hgo]
        obtain ⟨mid, hmid⟩ : ∃ mid : Nat, (low + high) / 2 = mid :=
          ⟨((low + high) / 2).toNat, by omega⟩
        have hlower : low ≤ mid := by omega
        have hupper : (mid : Int) ≤ high := by omega
        obtain ⟨row, a, hrow, ha⟩ := h.row_at (i := mid) (by omega)
        dsimp only
        rw [hmid, Int.toNat_natCast, hrow]
        dsimp only
        rw [ha]
        dsimp only
        by_cases hafter : a > addrOffset
        · rw [if_pos hafter]
          have hsplit' : SplitsAt rows addrOffset low (mid - 1) := by
            refine ⟨hlow, by omega, by omega, hsplit.below, fun i hi row' b hrow' hb => ?_⟩
            have hle := h.sorted mid i row row' a b (by omega) hrow hrow' ha hb
            have hlt : addrOffset.toNat < a.toNat := hafter
            omega
          exact ih hsplit' (by omega)
        · rw [if_neg hafter]
          have hsplit' : SplitsAt rows addrOffset (mid + 1) high := by
            refine ⟨by omega, by omega, hhigh, fun i hi row' b hrow' hb => ?_, hsplit.above⟩
            have hle := h.sorted i mid row' row b a (by omega) hrow' hrow hb ha
            have hnot : ¬addrOffset.toNat < a.toNat := hafter
            omega
          exact ih hsplit' (by omega)
      · rw [if_neg hgo]
        have hle := hsplit.low_le
        obtain rfl : low = high + 1 := by omega
        exact ⟨high, rfl, hsplit⟩

-- For the address of a row the search gives the last row with that address.
theorem searchAddrInLines_last (h : LineTable rows) {i : Nat} {row : LineRow} {a : UWORD}
    (hrow : rows[i]? = some row) (ha : row.lineaddr = .ok a) :
    ∃ j last, searchAddrInLines ⟨rows⟩ a = .ok j ∧ i ≤ j ∧ rows[j]? = some last ∧
      last.lineaddr = .ok a ∧
      ∀ k later, j < k → rows[k]? = some later → later.lineaddr ≠ .ok a := by
  have hpasses : ((rows.length : Int) - 1) - 0 + 1 ≤ rows.length := by omega
  obtain ⟨last, hsearch, hsplit⟩ := searchLoop_splits h.addrsSorted (SplitsAt.whole rows a) hpasses
  have hi : (i : Int) ≤ last := by
    by_contra hgt
    have hafter := hsplit.above i (by omega) row a hrow ha
    omega
  obtain ⟨j, rfl⟩ : ∃ j : Nat, last = j := ⟨last.toNat, by omega⟩
  have hlt := hsplit.high_lt
  obtain ⟨found, b, hfound, hb⟩ := h.addrsSorted.row_at (i := j) (by omega)
  have hsame : b = a := by
    have hle := hsplit.below j (by omega) found b hfound hb
    have hge := h.sorted i j row found a b (by omega) hrow hfound ha hb
    exact BitVec.eq_of_toNat_eq (by omega)
  subst b
  refine ⟨j, found, ?_, by omega, hfound, hb, fun k later hk hlater heq => ?_⟩
  · unfold searchAddrInLines
    simp only [hsearch]
    rw [if_neg (by omega), Int.toNat_natCast]
  · have hafter := hsplit.above k (by omega) later a hlater heq
    omega

-- The row that a line of a source file is resolved to.
structure Resolved (rows : List LineRow) (sourceFileName : CString) (lineNum : UWORD) (i : Nat)
    (row : LineRow) : Prop where
  index : rows[i]? = some row
  source : row.linesrc = .ok sourceFileName
  line : ∃ n, row.lineno = .ok n ∧ lineNum ≤ n
  first : ∀ (j : Nat) (earlier : LineRow), j < i → rows[j]? = some earlier →
    earlier.linesrc = .ok sourceFileName → ∃ n, earlier.lineno = .ok n ∧ n < lineNum

-- A row in front that is passed over leaves the resolved one where it is.
theorem Resolved.cons {sourceFileName : CString} {lineNum : UWORD} {i : Nat} {row front : LineRow}
    (h : Resolved rows sourceFileName lineNum i row)
    (hfront : front.linesrc = .ok sourceFileName → ∃ n, front.lineno = .ok n ∧ n < lineNum) :
    Resolved (front :: rows) sourceFileName lineNum (i + 1) row := by
  refine ⟨by simpa using h.index, h.source, h.line, fun j earlier hj hearlier hsource => ?_⟩
  cases j with
  | zero =>
      obtain rfl : front = earlier := by simpa using hearlier
      exact hfront hsource
  | succ j => exact h.first j earlier (by omega) (by simpa using hearlier) hsource

theorem searchSourceLine_ok {undef : UWORD} {sourceFileName : CString} {lineNum a : UWORD}
    (hline : ∀ row ∈ rows, ∃ n, row.lineno = .ok n)
    (h : searchSourceLine undef sourceFileName lineNum rows = .ok a) :
    ∃ i row, Resolved rows sourceFileName lineNum i row ∧ row.lineaddr = .ok a := by
  induction rows with
  | nil => cases h
  | cons front rest ih =>
      have hrest : ∀ row ∈ rest, ∃ n, row.lineno = .ok n := fun row hmem =>
        hline row (List.mem_cons_of_mem _ hmem)
      obtain ⟨n, hn⟩ := hline front List.mem_cons_self
      unfold searchSourceLine at h
      cases hsource : front.linesrc with
      | noEntry => simp [hsource] at h
      | error => simp [hsource] at h
      | ok fileName =>
          simp only [hsource, hn] at h
          by_cases hfile : fileName = sourceFileName
          · rw [if_neg (not_not_intro hfile)] at h
            by_cases hbefore : n < lineNum
            · rw [if_pos hbefore] at h
              obtain ⟨i, row, hresolved, haddr⟩ := ih hrest h
              exact ⟨i + 1, row, hresolved.cons fun _ => ⟨n, hn, hbefore⟩, haddr⟩
            · rw [if_neg hbefore] at h
              subst fileName
              exact ⟨0, front, ⟨rfl, hsource, ⟨n, hn, BitVec.not_lt.mp hbefore⟩,
                fun j _ hj => absurd hj (Nat.not_lt_zero j)⟩, h⟩
          · rw [if_pos hfile] at h
            obtain ⟨i, row, hresolved, haddr⟩ := ih hrest h
            have hother : front.linesrc ≠ .ok sourceFileName := fun hsame =>
              hfile (DwRes.ok.inj (hsource.symm.trans hsame))
            exact ⟨i + 1, row, hresolved.cons fun hsame => absurd hsame hother, haddr⟩

theorem getLineIterator_eq_ok {cu : CompUnit} {lineIterator : LineIterator}
    (h : getLineIterator cu = .ok lineIterator) :
    cu.linesFromContext = .ok lineIterator.dwLines := by
  unfold getLineIterator at h
  cases hcount : cu.srclines with
  | noEntry => simp [hcount] at h
  | error => simp [hcount] at h
  | ok tableCount =>
      simp only [hcount] at h
      by_cases hone : tableCount ≠ 1
      · simp [hone] at h
      · rw [if_neg hone] at h
        cases hlines : cu.linesFromContext with
        | noEntry => simp [hlines] at h
        | error => simp [hlines] at h
        | ok dwLines =>
            simp only [hlines, DwRes.ok.injEq] at h
            rw [← h]

-- The address of the row that a line is resolved to is taken back to the last row with
-- that address: the line it names is the resolved one unless that row has another.
theorem line_at_resolved_addr (undef : UWORD) (dbg : DwarfDebug) {sourceFileName : CString}
    {lineNum a : UWORD} {after : DwarfDebug} {cu : CompUnit}
    (hcu : (getCuFromFileName sourceFileName dbg).1 = .ok cu)
    (hrows : cu.linesFromContext = .ok rows) (htable : LineTable rows)
    (haddr : getAddrFromSourceLine undef sourceFileName lineNum dbg = (.ok a, after))
    (hbelongs : (getCuFromAddr a after).1 = (.noEntry, some cu)) :
    ∃ i row j last, Resolved rows sourceFileName lineNum i row ∧ row.lineaddr = .ok a ∧ i ≤ j ∧
      rows[j]? = some last ∧ last.lineaddr = .ok a ∧
      (∀ k later, j < k → rows[k]? = some later → later.lineaddr ≠ .ok a) ∧
      (getLineNoFromAddr a after).1 = last.lineno := by
  unfold getAddrFromSourceLine at haddr
  rcases hfile : getCuFromFileName sourceFileName dbg with ⟨res, dbg'⟩
  rw [hfile] at hcu haddr
  obtain rfl : res = .ok cu := hcu
  cases hiter : getLineIterator cu with
  | noEntry => simp [hiter] at haddr
  | error => simp [hiter] at haddr
  | ok lineIterator =>
      simp only [hiter, Prod.mk.injEq] at haddr
      obtain ⟨hsearch, rfl⟩ := haddr
      have hlines := getLineIterator_eq_ok hiter
      obtain ⟨dwLines⟩ := lineIterator
      obtain rfl : rows = dwLines := DwRes.ok.inj (hrows.symm.trans hlines)
      obtain ⟨i, row, hresolved, hrow⟩ := searchSourceLine_ok htable.line hsearch
      obtain ⟨j, last, hlast, hij, hat, hsame, hlater⟩ :=
        searchAddrInLines_last htable hresolved.index hrow
      refine ⟨i, row, j, last, hresolved, hrow, hij, hat, hsame, hlater, ?_⟩
      unfold getLineNoFromAddr
      rcases hfound : getCuFromAddr a dbg' with ⟨found, dbg''⟩
      rw [hfound] at hbelongs
      obtain rfl : found = (.noEntry, some cu) := hbelongs
      simp only [hiter, hlast, hat]

def printRow (a n : UWORD) : LineRow where
  lineaddr := .ok a
  linesrc := .ok "/src/print.cpp".toList
  lineno := .ok n

theorem printRows_table {a : UWORD} (h : 0x1000 ≤ a.toNat) :
    LineTable [printRow 0x1000 3, printRow a 4] where
  addr row hmem := by
    simp only [List.mem_cons, List.not_mem_nil, or_false] at hmem
    rcases hmem with rfl | rfl <;> exact ⟨_, rfl⟩
  line row hmem := by
    simp only [List.mem_cons, List.not_mem_nil, or_false] at hmem
    rcases hmem with rfl | rfl <;> exact ⟨_, rfl⟩
  sorted i j x y b c hij hx hy hb hc := by
    have hj : j < 2 := (List.getElem?_eq_some_iff.mp hy).1
    obtain rfl | rfl : j = 0 ∨ j = 1 := by omega
    · obtain rfl : i = 0 := by omega
      obtain rfl : x = y := Option.some_inj.mp (hx.symm.trans hy)
      obtain rfl : b = c := DwRes.ok.inj (hb.symm.trans hc)
      exact Nat.le_refl _
    · obtain rfl | rfl : i = 0 ∨ i = 1 := by omega
      · obtain rfl : x = printRow 0x1000 3 := (Option.some_inj.mp hx).symm
        obtain rfl : y = printRow a 4 := (Option.some_inj.mp hy).symm
        obtain rfl : b = 0x1000 := (DwRes.ok.inj hb).symm
        obtain rfl : c = a := (DwRes.ok.inj hc).symm
        exact h
      · obtain rfl : x = y := Option.some_inj.mp (hx.symm.trans hy)
        obtain rfl : b = c := DwRes.ok.inj (hb.symm.trans hc)
        exact Nat.le_refl _

theorem line_at_print_start :
    ∃ i row j last, Resolved [printRow 0x1000 3, printRow 0x1004 4] "/src/print.cpp".toList 2 i row ∧
      row.lineaddr = .ok 0x1000 ∧ i ≤ j ∧
      [printRow 0x1000 3, printRow 0x1004 4][j]? = some last ∧ last.lineaddr = .ok 0x1000 ∧
      (∀ k later, j < k → [printRow 0x1000 3, printRow 0x1004 4][k]? = some later →
        later.lineaddr ≠ .ok 0x1000) ∧
      (getLineNoFromAddr 0x1000
        ⟨[sourceUnit "print.cpp" 0x1000 0x80 [printRow 0x1000 3, printRow 0x1004 4]], 0⟩).1
          = last.lineno :=
  line_at_resolved_addr 0
    ⟨[sourceUnit "print.cpp" 0x1000 0x80 [printRow 0x1000 3, printRow 0x1004 4]], 0⟩ rfl rfl
    (printRows_table (by decide)) rfl rfl

-- Two rows with the address of the line: the way back names the later one.
theorem shared_addr_names_later :
    let rows := [printRow 0x1000 3, printRow 0x1000 4]
    let dbg : DwarfDebug := ⟨[sourceUnit "print.cpp" 0x1000 0x80 rows], 0⟩
    LineTable rows ∧
      Resolved rows "/src/print.cpp".toList 3 0 (printRow 0x1000 3) ∧
      getAddrFromSourceLine 0 "/src/print.cpp".toList 3 dbg = (.ok 0x1000, dbg) ∧
      (getCuFromAddr 0x1000 dbg).1 = (.noEntry, some (sourceUnit "print.cpp" 0x1000 0x80 rows)) ∧
      (getLineNoFromAddr 0x1000 dbg).1 = .ok 4 :=
  ⟨printRows_table (by decide),
    ⟨rfl, rfl, ⟨3, rfl, by decide⟩, fun j _ hj => absurd hj (Nat.not_lt_zero j)⟩, rfl, rfl, rfl⟩

end VDebugger
