import VDebugger.DwarfInfo.Lines

namespace VDebugger

open Machine

variable {rows : List LineRow} {undef lineNum : UWORD} {sourceFileName : CString}

-- Every row has a source file, a line number and an address.
def ReadableRows (rows : List LineRow) : Prop :=
  ∀ row ∈ rows, (∃ fileName, row.linesrc = .ok fileName) ∧ (∃ n, row.lineno = .ok n) ∧
    ∃ a, row.lineaddr = .ok a

def LineRow.OnLine (sourceFileName : CString) (lineNum : UWORD) (row : LineRow) : Prop :=
  row.linesrc = .ok sourceFileName ∧ row.lineno = .ok lineNum

-- A breakpoint on a line goes to a row of that line, and to none where there is no such row.
structure GoesToLine (rows : List LineRow) (sourceFileName : CString) (lineNum : UWORD)
    (res : DwRes UWORD) : Prop where
  found : (∃ row ∈ rows, row.OnLine sourceFileName lineNum) →
    ∃ row ∈ rows, row.OnLine sourceFileName lineNum ∧ ∃ a, row.lineaddr = .ok a ∧ res = .ok a
  missing : (¬∃ row ∈ rows, row.OnLine sourceFileName lineNum) → res = .noEntry

-- The row is passed over: it is of another file or of a line before.
def LineRow.Passed (sourceFileName : CString) (lineNum : UWORD) (row : LineRow) : Prop :=
  row.linesrc = .ok sourceFileName → ∃ n, row.lineno = .ok n ∧ n < lineNum

theorem searchSourceLine_passed {row : LineRow} (hread : ReadableRows (row :: rows))
    (h : row.Passed sourceFileName lineNum) :
    searchSourceLine undef sourceFileName lineNum (row :: rows)
      = searchSourceLine undef sourceFileName lineNum rows := by
  obtain ⟨⟨fileName, hsource⟩, ⟨n, hn⟩, _⟩ := hread row List.mem_cons_self
  rw [searchSourceLine]
  simp only [hsource, hn]
  by_cases hfile : fileName = sourceFileName
  · subst fileName
    obtain ⟨m, hm, hbefore⟩ := h hsource
    obtain rfl : n = m := DwRes.ok.inj (hn.symm.trans hm)
    rw [if_neg (not_not_intro rfl), if_pos hbefore]
  · rw [if_pos hfile]

theorem searchSourceLine_here {row : LineRow} (hsource : row.linesrc = .ok sourceFileName)
    (hline : ∃ n, row.lineno = .ok n ∧ lineNum ≤ n) :
    searchSourceLine undef sourceFileName lineNum (row :: rows) = row.lineaddr := by
  obtain ⟨n, hn, hle⟩ := hline
  have hnot : ¬n < lineNum := BitVec.not_lt.mpr hle
  rw [searchSourceLine]
  simp only [hsource, hn]
  rw [if_neg (not_not_intro rfl), if_neg hnot]

theorem ReadableRows.tail {row : LineRow} (hread : ReadableRows (row :: rows)) :
    ReadableRows rows := fun other hmem => hread other (List.mem_cons_of_mem _ hmem)

-- The first row of the file that is not passed over, if there is one.
theorem searchSourceLine_of_resolved (hread : ReadableRows rows) {i : Nat} {row : LineRow}
    (h : Resolved rows sourceFileName lineNum i row) :
    searchSourceLine undef sourceFileName lineNum rows = row.lineaddr := by
  induction rows generalizing i with
  | nil => exact absurd h.index (by simp)
  | cons front rest ih =>
      cases i with
      | zero =>
          obtain rfl : front = row := by simpa using h.index
          exact searchSourceLine_here h.source h.line
      | succ i =>
          rw [searchSourceLine_passed hread (h.first 0 front (by omega) rfl)]
          refine ih hread.tail (i := i) ⟨by simpa using h.index, h.source, h.line, ?_⟩
          intro j earlier hj hearlier
          exact h.first (j + 1) earlier (by omega) (by simpa using hearlier)

theorem searchSourceLine_of_passed (hread : ReadableRows rows)
    (h : ∀ row ∈ rows, row.Passed sourceFileName lineNum) :
    searchSourceLine undef sourceFileName lineNum rows = .noEntry := by
  induction rows with
  | nil => rfl
  | cons front rest ih =>
      rw [searchSourceLine_passed hread (h front List.mem_cons_self)]
      exact ih hread.tail fun row hmem => h row (List.mem_cons_of_mem _ hmem)

theorem resolved_or_passed (hread : ReadableRows rows) (sourceFileName : CString)
    (lineNum : UWORD) :
    (∃ i row, Resolved rows sourceFileName lineNum i row) ∨
      ∀ row ∈ rows, row.Passed sourceFileName lineNum := by
  induction rows with
  | nil => exact Or.inr fun row hmem => absurd hmem (by simp)
  | cons front rest ih =>
      by_cases hpassed : front.Passed sourceFileName lineNum
      · rcases ih hread.tail with ⟨i, row, hresolved⟩ | hrest
        · exact Or.inl ⟨i + 1, row, hresolved.cons hpassed⟩
        · refine Or.inr fun row hmem => ?_
          rcases List.mem_cons.mp hmem with rfl | hmem
          · exact hpassed
          · exact hrest row hmem
      · obtain ⟨_, ⟨n, hn⟩, _⟩ := hread front List.mem_cons_self
        unfold LineRow.Passed at hpassed
        obtain ⟨hsource, hnot⟩ := Classical.not_imp.mp hpassed
        have hle : lineNum ≤ n := BitVec.not_lt.mp fun hlt => hnot ⟨n, hn, hlt⟩
        exact Or.inl ⟨0, front, rfl, hsource, ⟨n, hn, hle⟩, fun j _ hj => by omega⟩

theorem scan_goes_to_line_iff (hread : ReadableRows rows) :
    GoesToLine rows sourceFileName lineNum (searchSourceLine undef sourceFileName lineNum rows) ↔
      ∀ i row, Resolved rows sourceFileName lineNum i row →
        ∃ other ∈ rows, other.OnLine sourceFileName lineNum ∧ other.lineaddr = row.lineaddr := by
  constructor
  · intro hgoes i row hresolved
    obtain ⟨_, _, a, ha⟩ := hread row (List.mem_of_getElem? hresolved.index)
    rw [searchSourceLine_of_resolved hread hresolved, ha] at hgoes
    by_cases hline : ∃ row ∈ rows, row.OnLine sourceFileName lineNum
    · obtain ⟨other, hmem, hon, b, hb, hsame⟩ := hgoes.found hline
      exact ⟨other, hmem, hon, hb.trans (hsame.symm.trans ha.symm)⟩
    · exact absurd (hgoes.missing hline) (by simp)
  · intro hshared
    rcases resolved_or_passed hread sourceFileName lineNum with ⟨i, row, hresolved⟩ | hpassed
    · obtain ⟨other, hmem, hon, hsame⟩ := hshared i row hresolved
      obtain ⟨_, _, a, ha⟩ := hread other hmem
      rw [searchSourceLine_of_resolved hread hresolved, ← hsame, ha]
      exact ⟨fun _ => ⟨other, hmem, hon, a, ha, rfl⟩, fun hnone => absurd ⟨other, hmem, hon⟩ hnone⟩
    · rw [searchSourceLine_of_passed hread hpassed]
      refine ⟨?_, fun _ => rfl⟩
      rintro ⟨row, hmem, hsource, hline⟩
      obtain ⟨n, hn, hlt⟩ := hpassed row hmem hsource
      obtain rfl : lineNum = n := DwRes.ok.inj (hline.symm.trans hn)
      exact absurd hlt (BitVec.lt_irrefl _)

theorem noEntry_goes_to_line_iff :
    GoesToLine rows sourceFileName lineNum .noEntry ↔
      ¬∃ row ∈ rows, row.OnLine sourceFileName lineNum := by
  constructor
  · intro hgoes hline
    obtain ⟨_, _, _, a, _, hres⟩ := hgoes.found hline
    cases hres
  · intro hnone
    exact ⟨fun hline => absurd hline hnone, fun _ => rfl⟩

-- The scan takes the first row of the file from the line on, be it on a later line. A file
-- that no unit is named after, such as a header, is not looked for in any table.
theorem goes_to_line_iff (undef : UWORD) (dbg : DwarfDebug) (sourceFileName : CString)
    (lineNum : UWORD) (cu : CompUnit) (rows : List LineRow)
    (hcu : (getCuFromFileName sourceFileName dbg).1 = .ok cu ∨
      (getCuFromFileName sourceFileName dbg).1 = .noEntry)
    (hrows : getLineIterator cu = .ok ⟨rows⟩) (hread : ReadableRows rows) :
    GoesToLine rows sourceFileName lineNum
        (getAddrFromSourceLine undef sourceFileName lineNum dbg).1 ↔
      match (getCuFromFileName sourceFileName dbg).1 with
      | .ok _ => ∀ i row, Resolved rows sourceFileName lineNum i row →
          ∃ other ∈ rows, other.OnLine sourceFileName lineNum ∧ other.lineaddr = row.lineaddr
      | _ => ¬∃ row ∈ rows, row.OnLine sourceFileName lineNum := by
  unfold getAddrFromSourceLine
  rcases hfile : getCuFromFileName sourceFileName dbg with ⟨res, after⟩
  rw [hfile] at hcu
  rcases hcu with hfound | hnone
  · obtain rfl : res = .ok cu := hfound
    simp only [hrows]
    exact scan_goes_to_line_iff hread
  · obtain rfl : res = .noEntry := hnone
    exact noEntry_goes_to_line_iff

theorem printRows_readable (lines : List (UWORD × UWORD)) :
    ReadableRows (lines.map fun line => printRow line.1 line.2) := by
  intro row hmem
  obtain ⟨line, _, rfl⟩ := List.mem_map.mp hmem
  exact ⟨⟨_, rfl⟩, ⟨_, rfl⟩, ⟨_, rfl⟩⟩

def printUnit (lines : List (UWORD × UWORD)) : CompUnit :=
  sourceUnit "print.cpp" 0x1000 0x80 (lines.map fun line => printRow line.1 line.2)

theorem goes_to_line_four :
    GoesToLine [printRow 0x1000 3, printRow 0x1004 4] "/src/print.cpp".toList 4
      (getAddrFromSourceLine 0 "/src/print.cpp".toList 4
        ⟨[printUnit [(0x1000, 3), (0x1004, 4)]], 0⟩).1 := by
  refine (goes_to_line_iff 0 _ _ 4 _ _ (Or.inl rfl) rfl
    (printRows_readable [(0x1000, 3), (0x1004, 4)])).mpr ?_
  intro i row hresolved
  have hmem := List.mem_of_getElem? hresolved.index
  obtain ⟨n, hn, hle⟩ := hresolved.line
  refine ⟨row, hmem, ⟨hresolved.source, ?_⟩, rfl⟩
  simp only [List.map_cons, List.map_nil, List.mem_cons, List.not_mem_nil, or_false] at hmem
  rcases hmem with rfl | rfl
  · cases hn
    exact absurd hle (by decide)
  · rfl

-- The condition of a loop stands behind its body: the body's line is taken for it.
theorem line_three_goes_to_five :
    let dbg : DwarfDebug := ⟨[printUnit [(0x1000, 5), (0x1008, 3)]], 0⟩
    (getAddrFromSourceLine 0 "/src/print.cpp".toList 3 dbg).1 = .ok 0x1000 ∧
      ¬GoesToLine [printRow 0x1000 5, printRow 0x1008 3] "/src/print.cpp".toList 3
        (getAddrFromSourceLine 0 "/src/print.cpp".toList 3 dbg).1 := by
  refine ⟨rfl, fun hgoes => ?_⟩
  obtain ⟨row, hmem, ⟨_, hline⟩, a, ha, hres⟩ :=
    hgoes.found ⟨printRow 0x1008 3, by simp, rfl, rfl⟩
  simp only [List.mem_cons, List.not_mem_nil, or_false] at hmem
  rcases hmem with rfl | rfl
  · exact absurd hline (by decide)
  · cases ha
    exact absurd hres (by decide)

end VDebugger
