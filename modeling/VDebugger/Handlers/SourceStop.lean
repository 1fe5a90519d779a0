import VDebugger.Breakpoint.Transparency
import VDebugger.DwarfInfo.SourceLine
import VDebugger.Handlers.Inspect
import VDebugger.Handlers.Terminal

namespace VDebugger

open Machine HandlerM Action

variable {κ : Type} {env : Env κ} {s t : Debugger κ}

section Tokens

end Tokens

section Continue

-- Where the program is loaded and what is known of its source.
structure SameProgram (s t : Debugger κ) : Prop where
  loadAddress : t.loadAddress = s.loadAddress
  dwarfDbg : t.dwarfDbg = s.dwarfDbg

theorem SameProgram.trans (s t u : Debugger κ) (h : SameProgram s t) (h' : SameProgram t u) :
    SameProgram s u :=
  ⟨h'.loadAddress.trans h.loadAddress, h'.dwarfDbg.trans h.dwarfDbg⟩

end Continue

section Lines

variable {rows : List LineRow} {cu : CompUnit} {sourceFileName : CString} {lineNum a : UWORD}
  {dbg : DwarfDebug} {i : Nat} {row : LineRow}

-- The unit of a source file and its line table, with the address of one of its rows.
structure LineAt (dbg : DwarfDebug) (sourceFileName : CString) (cu : CompUnit)
    (rows : List LineRow) (a : UWORD) : Prop where
  unit : (getCuFromFileName sourceFileName dbg).1 = .ok cu
  iterator : getLineIterator cu = .ok ⟨rows⟩
  readable : ReadableRows rows
  sorted : AddrsSorted rows
  belongs : (getCuFromAddr a dbg).1 = (.noEntry, some cu)

theorem LineAt.table (h : LineAt dbg sourceFileName cu rows a) : LineTable rows :=
  ⟨h.sorted.addr, fun row hmem => (h.readable row hmem).2.1, h.sorted.sorted⟩

theorem LineAt.getAddrFromSourceLine (h : LineAt dbg sourceFileName cu rows a)
    (hresolved : Resolved rows sourceFileName lineNum i row) (haddr : row.lineaddr = .ok a)
    (undef : UWORD) :
    (VDebugger.getAddrFromSourceLine undef sourceFileName lineNum dbg).1 = .ok a := by
  have hunit := h.unit
  unfold VDebugger.getAddrFromSourceLine
  rcases hfound : getCuFromFileName sourceFileName dbg with ⟨res, after⟩
  rw [hfound] at hunit
  obtain rfl : res = .ok cu := hunit
  dsimp only
  rw [h.iterator]
  exact (searchSourceLine_of_resolved h.readable hresolved).trans haddr

-- The way back from the address goes to the last row that has it.
theorem LineAt.getLineNoFromAddr (h : LineAt dbg sourceFileName cu rows a)
    (hresolved : Resolved rows sourceFileName lineNum i row) (haddr : row.lineaddr = .ok a) :
    ∃ j last shown, i ≤ j ∧ rows[j]? = some last ∧ last.lineaddr = .ok a ∧
      (∀ k later, j < k → rows[k]? = some later → later.lineaddr ≠ .ok a) ∧
      last.lineno = .ok shown ∧ (VDebugger.getLineNoFromAddr a dbg).1 = .ok shown := by
  obtain ⟨j, last, hsearch, hij, hlast, hsame, hlater⟩ :=
    searchAddrInLines_last h.table hresolved.index haddr
  obtain ⟨shown, hshown⟩ := h.table.line last (List.mem_of_getElem? hlast)
  refine ⟨j, last, shown, hij, hlast, hsame, hlater, hshown, ?_⟩
  have hbelongs := h.belongs
  unfold VDebugger.getLineNoFromAddr
  rcases hcu : getCuFromAddr a dbg with ⟨found, after⟩
  rw [hcu] at hbelongs
  obtain rfl : found = (.noEntry, some cu) := hbelongs
  dsimp only
  rw [h.iterator]
  dsimp only
  rw [hsearch]
  dsimp only
  rw [hlast]
  exact hshown

end Lines

section Stops

variable {code : Set Nat} {fetched : Proc κ → Set Nat} {on : Set WORD} {v : Proc κ}
  {rows : List LineRow} {cu : CompUnit} {sourceFileName numeral : CString} {a : UWORD} {n : Int}
  {i : Nat} {row : LineRow}

end Stops

end VDebugger
