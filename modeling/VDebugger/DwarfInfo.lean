import VDebugger.Registers
import VDebugger.Cmdline

namespace VDebugger

-- DW_DLV_OK with what the call stores, DW_DLV_NO_ENTRY, DW_DLV_ERROR.
inductive DwRes (α : Type) where
  | ok (value : α)
  | noEntry
  | error
  deriving DecidableEq, Repr

inductive DwTag where
  | DW_TAG_compile_unit
  | DW_TAG_subprogram
  | DW_TAG_variable
  | DW_TAG_formal_parameter
  | DW_TAG_lexical_block
  | DW_TAG_inlined_subroutine
  | other (tag : Nat)
  deriving DecidableEq, Repr

-- `dwarf_highpc_b`: the value, and whether its form is an address form.
structure HighPc where
  value : UWORD
  isAddress : Bool
  deriving DecidableEq, Repr

structure DieAttrs where
  tag : DwTag
  lowpc : DwRes UWORD
  highpc : DwRes HighPc
  -- `dwarf_die_text` of DW_AT_name and DW_AT_comp_dir
  name : DwRes CString := .noEntry
  compDir : DwRes CString := .noEntry
  deriving DecidableEq, Repr

inductive Die where
  | mk (attrs : DieAttrs) (children : List Die)

def Die.attrs : Die → DieAttrs
  | .mk attrs _ => attrs

-- One row of a line table: what `dwarf_lineaddr`, `dwarf_linesrc` and `dwarf_lineno`
-- give for it.
structure LineRow where
  lineaddr : DwRes UWORD
  linesrc : DwRes CString := .noEntry
  lineno : DwRes UWORD := .noEntry
  deriving DecidableEq, Repr

structure CompUnit where
  die : Die
  -- `dwarf_srclines_b`: the number of line tables.
  srclines : DwRes Nat
  -- `dwarf_srclines_from_linecontext`
  linesFromContext : DwRes (List LineRow)

-- The compilation units and the position of `dwarf_next_cu_header_e` among them.
structure DwarfDebug where
  cus : List CompUnit
  cursor : Nat

structure LineIterator where
  dwLines : List LineRow

def getLowHighPcFromDie (die : Die) : DwRes (UWORD × UWORD) :=
  match die.attrs.lowpc with
  | .noEntry => .noEntry
  | .error => .error
  | .ok low =>
      match die.attrs.highpc with
      | .noEntry => .noEntry
      | .error => .error
      | .ok high => .ok (low, if high.isAddress then high.value else high.value + low)

-- The callers look at the answer only where the result is DW_DLV_OK.
def dieContainsAddrOffset (addrOffset : WORD) (die : Die) : DwRes Bool :=
  match getLowHighPcFromDie die with
  | .noEntry => .noEntry
  | .error => .error
  | .ok (low, high) => .ok (low ≤ addrOffset && addrOffset < high)

-- The walk of `get_cu_from_addr` over the units the cursor has not passed yet.
-- It goes on after a match, so that the last match stays.
def getCuFromAddrLoop (addrOffset : WORD) (dbg : DwarfDebug) :
    List CompUnit → Option CompUnit → (DwRes Unit × Option CompUnit) × DwarfDebug
  | [], found => ((.noEntry, found), { dbg with cursor := 0 })
  | cu :: rest, found =>
      let dbg := { dbg with cursor := dbg.cursor + 1 }
      match dieContainsAddrOffset addrOffset cu.die with
      | .error => ((.error, found), dbg)
      | .ok true => getCuFromAddrLoop addrOffset dbg rest (some cu)
      | _ => getCuFromAddrLoop addrOffset dbg rest found

def getCuFromAddr (addrOffset : WORD) (dbg : DwarfDebug) :
    (DwRes Unit × Option CompUnit) × DwarfDebug :=
  getCuFromAddrLoop addrOffset dbg (dbg.cus.drop dbg.cursor) none

mutual

def getSubProgDieInDieFromAddr (addrOffset : WORD) :
    Die → Option Die → DwRes Unit × Option Die
  | .mk _ children, subProgDie => subProgSiblings addrOffset children subProgDie

-- The loop over `cur_die` and its siblings. The recursive call is made on the
-- first child of `cur_die`, and that call starts at the first child's children.
def subProgSiblings (addrOffset : WORD) :
    List Die → Option Die → DwRes Unit × Option Die
  | [], subProgDie => (.noEntry, subProgDie)
  | .mk attrs [] :: rest, subProgDie =>
      match dieContainsAddrOffset addrOffset (.mk attrs []) with
      | .error => (.error, subProgDie)
      | contains =>
          let hit := contains = .ok true && attrs.tag = .DW_TAG_subprogram
          subProgSiblings addrOffset rest (if hit then some (.mk attrs []) else subProgDie)
  | .mk attrs (first :: others) :: rest, subProgDie =>
      match dieContainsAddrOffset addrOffset (.mk attrs (first :: others)) with
      | .error => (.error, subProgDie)
      | contains =>
          let hit := contains = .ok true && attrs.tag = .DW_TAG_subprogram
          let here := if hit then some (.mk attrs (first :: others)) else subProgDie
          match getSubProgDieInDieFromAddr addrOffset first here with
          | (.error, below) => (.error, below)
          | (_, below) => subProgSiblings addrOffset rest below

end

def getSubProgDieFromAddr (addrOffset : WORD) (dbg : DwarfDebug) :
    (DwRes Unit × Option Die) × DwarfDebug :=
  match getCuFromAddr addrOffset dbg with
  | ((.error, _), dbg) => ((.error, none), dbg)
  | ((_, none), dbg) => ((.error, none), dbg)
  | ((_, some cu), dbg) => (getSubProgDieInDieFromAddr addrOffset cu.die none, dbg)

-- `get_line_context` and `get_src_lines_from_context`. Only a single line table
-- is supported.
def getLineIterator (cu : CompUnit) : DwRes LineIterator :=
  match cu.srclines with
  | .noEntry => .noEntry
  | .error => .error
  | .ok tableCount =>
      if tableCount ≠ 1 then .noEntry
      else
        match cu.linesFromContext with
        | .noEntry => .noEntry
        | .error => .error
        | .ok dwLines => .ok { dwLines }

-- The loop of `search_addr_in_lines`. Each pass leaves fewer candidates between
-- `low` and `high`, so the count of rows bounds the passes.
def searchLoop (dwLines : List LineRow) (addrOffset : UWORD) : Nat → Int → Int → DwRes Int
  | 0, _, high => .ok high
  | passes + 1, low, high =>
      if low ≤ high then
        let mid := (low + high) / 2
        match dwLines[mid.toNat]? with
        | none => .error
        | some row =>
            match row.lineaddr with
            | .noEntry => .noEntry
            | .error => .error
            | .ok lineAddr =>
                if lineAddr > addrOffset then searchLoop dwLines addrOffset passes low (mid - 1)
                else searchLoop dwLines addrOffset passes (mid + 1) high
      else .ok high

def searchAddrInLines (lineIterator : LineIterator) (addrOffset : UWORD) : DwRes Nat :=
  let lineCount := lineIterator.dwLines.length
  match searchLoop lineIterator.dwLines addrOffset lineCount 0 ((lineCount : Int) - 1) with
  | .noEntry => .noEntry
  | .error => .error
  | .ok high => if high < 0 then .noEntry else .ok high.toNat

-- `get_line_iterator` gives DW_DLV_ERROR for a null pointer, and where the search finds
-- nothing the result is 1, which is that of DW_DLV_ERROR.
def getLineNoFromAddr (addrOffset : UWORD) (dbg : DwarfDebug) : DwRes UWORD × DwarfDebug :=
  match getCuFromAddr addrOffset dbg with
  | ((.error, _), dbg) => (.error, dbg)
  | ((_, none), dbg) => (.error, dbg)
  | ((_, some cu), dbg) =>
      match getLineIterator cu with
      | .noEntry => (.noEntry, dbg)
      | .error => (.error, dbg)
      | .ok lineIterator =>
          match searchAddrInLines lineIterator addrOffset with
          | .ok lineIndex =>
              match lineIterator.dwLines[lineIndex]? with
              | some row => (row.lineno, dbg)
              | none => (.error, dbg)
          | _ => (.error, dbg)

-- The walk of `get_cu_from_file_name` over the units the cursor has not passed yet. It
-- goes on after a match too.
def getCuFromFileNameLoop (sourceFileName : CString) (dbg : DwarfDebug) :
    List CompUnit → Option CompUnit → DwRes CompUnit × DwarfDebug
  | [], found =>
      match found with
      | some cu => (.ok cu, { dbg with cursor := 0 })
      | none => (.noEntry, { dbg with cursor := 0 })
  | cu :: rest, found =>
      let dbg := { dbg with cursor := dbg.cursor + 1 }
      match cu.die.attrs.name with
      | .error => (.error, dbg)
      | .noEntry => getCuFromFileNameLoop sourceFileName dbg rest found
      | .ok fileName =>
          match cu.die.attrs.compDir with
          | .error => (.error, dbg)
          | .noEntry => getCuFromFileNameLoop sourceFileName dbg rest found
          | .ok dirPath =>
              let check :=
                if fileName.head? = some '/' then
                  mergeAndCheckPath sourceFileName [] fileName.tail
                else mergeAndCheckPath sourceFileName dirPath fileName
              getCuFromFileNameLoop sourceFileName dbg rest (if check then some cu else found)

def getCuFromFileName (sourceFileName : CString) (dbg : DwarfDebug) : DwRes CompUnit × DwarfDebug :=
  getCuFromFileNameLoop sourceFileName dbg (dbg.cus.drop dbg.cursor) none

-- The loop of `get_addr_from_source_line`. A `line_no` that `dwarf_lineno` gives no entry
-- for has no value.
def searchSourceLine (undef : UWORD) (sourceFileName : CString) (lineNum : UWORD) :
    List LineRow → DwRes UWORD
  | [] => .noEntry
  | row :: rest =>
      match row.linesrc with
      | .noEntry => .noEntry
      | .error => .error
      | .ok fileName =>
          if fileName ≠ sourceFileName then searchSourceLine undef sourceFileName lineNum rest
          else
            match row.lineno with
            | .error => .error
            | .noEntry =>
                if undef < lineNum then searchSourceLine undef sourceFileName lineNum rest
                else row.lineaddr
            | .ok lineNo =>
                if lineNo < lineNum then searchSourceLine undef sourceFileName lineNum rest
                else row.lineaddr

def getAddrFromSourceLine (undef : UWORD) (sourceFileName : CString) (lineNum : UWORD)
    (dbg : DwarfDebug) : DwRes UWORD × DwarfDebug :=
  match getCuFromFileName sourceFileName dbg with
  | (.noEntry, dbg) => (.noEntry, dbg)
  | (.error, dbg) => (.error, dbg)
  | (.ok cu, dbg) =>
      match getLineIterator cu with
      | .noEntry => (.noEntry, dbg)
      | .error => (.error, dbg)
      | .ok lineIterator =>
          (searchSourceLine undef sourceFileName lineNum lineIterator.dwLines, dbg)

end VDebugger
