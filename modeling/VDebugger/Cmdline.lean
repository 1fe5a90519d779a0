import Mathlib.Algebra.Order.Ring.Int
import Mathlib.Data.List.Basic

namespace VDebugger

-- The characters of a string before its null character.
abbrev CString : Type := List Char

def nul : Char := Char.ofNat 0

-- PATH_MAX + FILENAME_MAX + 256
def CMD_MAX_SIZE : Nat := 4096 + 4096 + 256

inductive COMMAND where
  | CONTINUE | REG | BREAKPOINT | EXIT | STEP | WHERE | FINISH | NEXT | BACKTRACE | VAR | PEEK_DATA
  | INVALID_CMD
  deriving DecidableEq, Repr

inductive BREAKPOINT_OPTIONS where
  | ENABLE_BREAKPOINT | DISABLE_BREAKPOINT | BREAKPOINT_ARG_MEMADDR | BREAKPOINT_ARG_LINENUM
  | INVALID_BREAKPOINT_OPT
  deriving DecidableEq, Repr

inductive REGISTER_OPTIONS where
  | READ_REGISTER | WRITE_REGISTER | REGISTER_ARG_ABBR | REGISTER_ARG_DWARF | REGISTER_ARG_ALL
  | INVALID_REGISTER_OPT
  deriving DecidableEq, Repr

inductive WHERE_OPTIONS where
  | WHERE_ARG_FUNC | WHERE_ARG_ADDR | WHERE_ARG_LINE | INVALID_WHERE_OPT
  deriving DecidableEq, Repr

inductive VAR_OPTIONS where
  | GET_VAR_ADDR_OPTION | SET_VAR_ADDR_OPTION | GET_VAR_VALUE_OPTION | SET_VAR_VALUE_OPTION
  | PARAM_VAR_OPTION | LOCAL_VAR_OPTION | INVALID_VAR_OPTION
  deriving DecidableEq, Repr

-- A buffer that `new_buffer` has allocated `size + 1` characters for.
structure Buffer where
  data : Nat → Char
  size : Nat
  rseek : Nat
  wseek : Nat
  ended : data size = nul
  wseek_le : wseek ≤ size

-- `malloc` says what the characters are before the first write.
def newBuffer (malloc : Nat → Char) (size : Nat) : Buffer where
  data i := if i = size then nul else malloc i
  size
  rseek := 0
  wseek := 0
  ended := if_pos rfl
  wseek_le := Nat.zero_le size

def peekBufferBack (buffer : Buffer) : Char :=
  if buffer.size = 0 ∨ buffer.wseek = 0 then nul else buffer.data (buffer.wseek - 1)

def readFromBuffer (buffer : Buffer) : Char × Buffer :=
  if buffer.size = 0 then
    if buffer.data buffer.rseek ≠ nul then
      (buffer.data buffer.rseek, { buffer with rseek := buffer.rseek + 1 })
    else (nul, buffer)
  else if buffer.rseek < buffer.size then
    (buffer.data buffer.rseek, { buffer with rseek := buffer.rseek + 1 })
  else (nul, buffer)

-- `none` where the function returns 1.
def writeToBuffer (buffer : Buffer) (c : Char) : Option Buffer :=
  if h : buffer.wseek < buffer.size then
    some
      { buffer with
        data := fun i => if i = buffer.wseek then c else buffer.data i
        wseek := buffer.wseek + 1
        ended := by
          rw [if_neg (Nat.ne_of_gt h)]
          exact buffer.ended
        wseek_le := h }
  else none

def resetSeek (buffer : Buffer) : Buffer :=
  { buffer with
    rseek := 0
    wseek := 0
    wseek_le := Nat.zero_le _ }

def isWhitespace (c : Char) : Bool := c = ' ' || c = '\t' || c = '\r' || c = '\n'

-- The result, the buffer, and what is left to read of the line.
def parseInput (buffer : Buffer) : CString → Int × Buffer × CString
  | [] =>
      if peekBufferBack buffer ≠ nul then (0, (writeToBuffer buffer nul).getD buffer, [])
      else (0, buffer, [])
  | next :: line =>
      if next = ';' then (1, (writeToBuffer buffer nul).getD buffer, line)
      else if !isWhitespace next then
        match writeToBuffer buffer next with
        | none => (-1, buffer, line)
        | some buffer => parseInput buffer line
      else if peekBufferBack buffer ≠ nul then
        match writeToBuffer buffer nul with
        | none => (-1, buffer, line)
        | some buffer => parseInput buffer line
      else parseInput buffer line

-- The loop of `next_token`, for at most so many passes, and the characters it skips.
def skipCharacters : Nat → Buffer → CString × Buffer
  | 0, buffer => ([], buffer)
  | passes + 1, buffer =>
      let (c, buffer) := readFromBuffer buffer
      if c = nul then ([], buffer)
      else
        let (token, buffer) := skipCharacters passes buffer
        (c :: token, buffer)

-- The string that the pointer returned is to. Each pass of the loop but the last moves
-- `rseek` on.
def nextToken (buffer : Buffer) : Option CString × Buffer :=
  if buffer.data buffer.rseek = nul then (none, buffer)
  else if buffer.size ≠ 0 ∧ buffer.rseek ≥ buffer.wseek then (none, buffer)
  else
    let (token, buffer) := skipCharacters (buffer.size - buffer.rseek + 1) buffer
    (some token, buffer)

def matchCommand : Option CString → COMMAND
  | none => .INVALID_CMD
  | some buffer =>
      if buffer = "continue".toList then .CONTINUE
      else if buffer = "reg".toList then .REG
      else if buffer = "exit".toList then .EXIT
      else if buffer = "break".toList then .BREAKPOINT
      else if buffer = "step".toList then .STEP
      else if buffer = "where".toList then .WHERE
      else if buffer = "finish".toList then .FINISH
      else if buffer = "next".toList then .NEXT
      else if buffer = "backtrace".toList then .BACKTRACE
      else if buffer = "var".toList then .VAR
      else if buffer = "peek".toList then .PEEK_DATA
      else .INVALID_CMD

def matchBreakpointOption : Option CString → BREAKPOINT_OPTIONS
  | none => .INVALID_BREAKPOINT_OPT
  | some buffer =>
      if buffer = "enable".toList then .ENABLE_BREAKPOINT
      else if buffer = "disable".toList then .DISABLE_BREAKPOINT
      else if buffer = "addr".toList then .BREAKPOINT_ARG_MEMADDR
      else if buffer = "line".toList then .BREAKPOINT_ARG_LINENUM
      else .INVALID_BREAKPOINT_OPT

def matchRegisterOption : Option CString → REGISTER_OPTIONS
  | none => .INVALID_REGISTER_OPT
  | some buffer =>
      if buffer = "read".toList then .READ_REGISTER
      else if buffer = "write".toList then .WRITE_REGISTER
      else if buffer = "s".toList then .REGISTER_ARG_ABBR
      else if buffer = "d".toList then .REGISTER_ARG_DWARF
      else if buffer = "a".toList then .REGISTER_ARG_ALL
      else .INVALID_REGISTER_OPT

-- `strncmp` on strings of which the second has `n` characters.
def mergeAndCheckPath (path dirPath fileName : CString) : Bool :=
  let x := dirPath.length
  let y := fileName.length
  if x + y + 1 ≠ path.length then false
  else if path[x]? ≠ some '/' then false
  else if path.take x ≠ dirPath then false
  else if (path.drop (x + 1)).take y ≠ fileName then false
  else true

-- The comparisons of lengths and parts are one of strings.
theorem mergeAndCheckPath_iff (path dirPath fileName : CString) :
    mergeAndCheckPath path dirPath fileName = true ↔ path = dirPath ++ '/' :: fileName := by
  constructor
  · intro h
    simp only [mergeAndCheckPath] at h
    by_cases hlen : dirPath.length + fileName.length + 1 = path.length
    · by_cases hsep : path[dirPath.length]? = some '/'
      · by_cases hdir : path.take dirPath.length = dirPath
        · by_cases hfile : (path.drop (dirPath.length + 1)).take fileName.length = fileName
          · have hrest : (path.drop (dirPath.length + 1)).length = fileName.length := by
              rw [List.length_drop]
              omega
            rw [← hrest, List.take_length] at hfile
            obtain ⟨hlt, hat⟩ := List.getElem?_eq_some_iff.mp hsep
            calc path = path.take dirPath.length ++ path.drop dirPath.length :=
                  (List.take_append_drop _ _).symm
              _ = dirPath ++ '/' :: fileName := by
                  rw [hdir, List.drop_eq_getElem_cons hlt, hat, hfile]
          · simp [hlen, hsep, hdir, hfile] at h
        · simp [hlen, hsep, hdir] at h
      · simp [hlen, hsep] at h
    · simp [hlen] at h
  · rintro rfl
    simp [mergeAndCheckPath, Nat.add_assoc]

end VDebugger
