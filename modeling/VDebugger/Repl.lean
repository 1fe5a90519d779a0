import VDebugger.Cmdline
import VDebugger.Ptrace

namespace VDebugger

variable {σ : Type}

-- What `next_token` gives up to the first null pointer. Each token moves `rseek` on.
def tokensFrom : Nat → Buffer → List CString
  | 0, _ => []
  | passes + 1, buffer =>
      match nextToken buffer with
      | (none, _) => []
      | (some token, buffer) => token :: tokensFrom passes buffer

def tokens (buffer : Buffer) : List CString := tokensFrom (buffer.size + 1) buffer

-- The debugger in the loop of `run_debugger`, and the tokens of the commands so far.
structure Session (σ : Type) where
  dbg : σ
  delivered : List (List CString)

-- `handle_command` with the tokens behind the one for `match_command`: its handlers see
-- the buffer through `next_token` alone.
abbrev Handler (σ : Type) : Type := σ → COMMAND → List CString → Int × σ

-- One command that is ready to be read, and whether the loop ends with it.
def Session.command (handle : Handler σ) (s : Session σ) (command : List CString) :
    Bool × Session σ :=
  let cmnd := matchCommand command.head?
  let s := { s with delivered := s.delivered ++ [command] }
  if cmnd = .EXIT then (true, s)
  else
    let (res, dbg) := handle s.dbg cmnd command.tail
    (res = Errors.DEBUGEE_EXITED.code, { s with dbg })

theorem parseInput_rest_lt (buffer : Buffer) (line : CString)
    (h : (parseInput buffer line).1 ≠ 0) : (parseInput buffer line).2.2.length < line.length := by
  induction line generalizing buffer with
  | nil =>
      unfold parseInput at h
      split at h <;> exact absurd rfl h
  | cons next line ih =>
      have hskip (after : Buffer) (hne : (parseInput after line).1 ≠ 0) :
          (parseInput after line).2.2.length < (next :: line).length :=
        Nat.lt_succ_of_lt (ih after hne)
      unfold parseInput at h ⊢
      by_cases hend : next = ';'
      · simp [hend]
      · simp only [if_neg hend] at h ⊢
        by_cases hblank : (!isWhitespace next) = true
        · simp only [if_pos hblank] at h ⊢
          cases hwrite : writeToBuffer buffer next with
          | none => simp
          | some after =>
              simp only [hwrite] at h
              exact hskip after h
        · simp only [if_neg hblank] at h ⊢
          by_cases hback : peekBufferBack buffer ≠ nul
          · simp only [if_pos hback] at h ⊢
            cases hwrite : writeToBuffer buffer nul with
            | none => simp
            | some after =>
                simp only [hwrite] at h
                exact hskip after h
          · simp only [if_neg hback] at h ⊢
            exact hskip buffer h

-- The inner loop, on what is left of a line.
def parseLine (handle : Handler σ) (buffer : Buffer) (s : Session σ) (line : CString) :
    Bool × Buffer × Session σ :=
  let parsed := parseInput buffer line
  if _h : parsed.1 = 0 then (false, parsed.2.1, s)
  else if parsed.1 < 0 then parseLine handle (resetSeek parsed.2.1) s parsed.2.2
  else
    match s.command handle (tokens parsed.2.1) with
    | (true, s) => (true, parsed.2.1, s)
    | (false, s) => parseLine handle (resetSeek parsed.2.1) s parsed.2.2
termination_by line.length
decreasing_by all_goals exact parseInput_rest_lt buffer line _h

-- The outer loop, on the lines that `poll_input` gives. `cmnd` has no value yet when it is
-- first compared with EXIT.
def pollLoop (handle : Handler σ) (buffer : Buffer) (s : Session σ) : List CString → Session σ
  | [] => s
  | line :: lines =>
      match parseLine handle buffer s line with
      | (true, _, s) => s
      | (false, buffer, s) => pollLoop handle buffer s lines

-- The commands in order, up to the first that the session ends with.
def Session.run (handle : Handler σ) : List (List CString) → Session σ → Session σ
  | [], s => s
  | command :: rest, s =>
      match s.command handle command with
      | (true, s) => s
      | (false, s) => Session.run handle rest s

end VDebugger
