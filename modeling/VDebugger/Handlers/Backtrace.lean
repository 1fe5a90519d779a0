import VDebugger.Command
import VDebugger.Handlers.Printed
import VDebugger.Machine.Output

namespace VDebugger

open Machine Printing

variable {κ γ : Type} {env : Env κ} {s : Debugger κ}

-- What `backtrace` sees of libunwind: the results of its calls on a cursor.
structure Unwinder (κ γ : Type) where
  -- The cursor that `unw_init_remote` sets up.
  cursor : Proc κ → γ
  step : γ → Int × γ
  regIp : γ → Int × UWORD
  regSp : γ → Int × UWORD
  -- `unw_get_proc_name`: the symbol and the offset in it
  procName : γ → Int × CString × UWORD

variable {unw : Unwinder κ γ} {cursor : γ} {frames : List γ} {fuel : Nat} {res : Int}

def UNW_ENOINFO : Int := 10

section Loop

def getPreservedRegisters (unw : Unwinder κ γ) (cursor : γ) : Option (UWORD × UWORD) :=
  let (ipRes, ip) := unw.regIp cursor
  if ipRes < 0 then none
  else
    let (spRes, sp) := unw.regSp cursor
    if spRes < 0 then none else some (ip, sp)

-- `"ip:%llx sp:%llx\n"` and `"(%s+0x%lx)\n"`
def frameLines (ip sp : UWORD) (sym : CString) (offset : UWORD) : CString :=
  "ip:".toList ++ formatHex ip ++ " sp:".toList ++ formatHex sp ++ ['\n'] ++
    '(' :: sym ++ "+0x".toList ++ formatHex offset ++ ")\n".toList

def errorLine (text : String) (code : Int) : CString := text.toList ++ decimal code ++ ['\n']

-- The body of the loop. A frame without a name is passed over with `continue`.
def printFrame (unw : Unwinder κ γ) (cursor : γ) : Printing (Debugger κ) Char Unit :=
  match getPreservedRegisters unw cursor with
  | none => do
      write (errorLine "error reading caller registers: " (-1))
      Action.fail 1
  | some (ip, sp) =>
      let (res, sym, offset) := unw.procName cursor
      if res < 0 then
        if res = -UNW_ENOINFO then pure ()
        else do
          write (errorLine "error reading name: " (-res))
          Action.fail 1
      else write (frameLines ip sp sym offset)

-- The `do` loop, where so many frames are observed.
def backtraceLoop (unw : Unwinder κ γ) : Nat → γ → Printing (Debugger κ) Char Unit
  | 0, _ => Action.block
  | fuel + 1, cursor => do
      printFrame unw cursor
      let (res, cursor) := unw.step cursor
      if 0 < res then backtraceLoop unw fuel cursor
      else if res < 0 then do
        write (errorLine "error reading ip: " (-res))
        Action.fail 1
      else pure ()

def backtrace (env : Env κ) (unw : Unwinder κ γ) (fuel : Nat) : Printing (Debugger κ) Char Unit := do
  let s ← quiet Action.fetch
  Action.failIf (env.unwInitRemote s.debugee < 0) 1
  backtraceLoop unw fuel (unw.cursor s.debugee)

end Loop

section Report

-- The frames from a cursor up to the one that `unw_step` does not go on from, and its result
-- there.
inductive Unwinds (unw : Unwinder κ γ) : γ → List γ → Int → Prop
  | last {cursor : γ} (h : (unw.step cursor).1 ≤ 0) :
      Unwinds unw cursor [cursor] (unw.step cursor).1
  | up {cursor : γ} {frames : List γ} {res : Int} (h : 0 < (unw.step cursor).1)
      (hrest : Unwinds unw (unw.step cursor).2 frames res) :
      Unwinds unw cursor (cursor :: frames) res

-- The message that the loop ends with at a frame.
def frameError (unw : Unwinder κ γ) (cursor : γ) : Option CString :=
  match getPreservedRegisters unw cursor with
  | none => some (errorLine "error reading caller registers: " (-1))
  | some _ =>
      if (unw.procName cursor).1 < 0 ∧ (unw.procName cursor).1 ≠ -UNW_ENOINFO then
        some (errorLine "error reading name: " (-(unw.procName cursor).1))
      else none

-- What is printed of a frame that the loop goes on from.
def frameText (unw : Unwinder κ γ) (cursor : γ) : CString :=
  match getPreservedRegisters unw cursor with
  | none => []
  | some (ip, sp) =>
      if (unw.procName cursor).1 < 0 then []
      else frameLines ip sp (unw.procName cursor).2.1 (unw.procName cursor).2.2

-- The text and the result for a list of frames, with the last result of `unw_step`.
def backtraceReport (unw : Unwinder κ γ) (res : Int) : List γ → CString × Outcome Unit
  | [] => if res < 0 then (errorLine "error reading ip: " (-res), .error 1) else ([], .ok ())
  | cursor :: frames =>
      match frameError unw cursor with
      | some message => (message, .error 1)
      | none =>
          let (text, result) := backtraceReport unw res frames
          (frameText unw cursor ++ text, result)

theorem printFrame_run (unw : Unwinder κ γ) (cursor : γ) (out : CString) :
    printFrame unw cursor (s, out) = match frameError unw cursor with
      | some message => (.error 1, s, out ++ message)
      | none => (.ok (), s, out ++ frameText unw cursor) := by
  unfold printFrame frameError frameText
  cases getPreservedRegisters unw cursor with
  | none => rfl
  | some regs =>
      obtain ⟨ip, sp⟩ := regs
      obtain ⟨res, sym, offset⟩ := unw.procName cursor
      dsimp only
      by_cases hneg : res < 0
      · rw [if_pos hneg, if_pos hneg]
        by_cases hinfo : res = -UNW_ENOINFO
        · rw [if_pos hinfo, if_neg fun h => h.2 hinfo, List.append_nil]
          rfl
        · rw [if_neg hinfo, if_pos ⟨hneg, hinfo⟩]
          rfl
      · rw [if_neg hneg, if_neg hneg, if_neg fun h => hneg h.1]
        rfl

-- By induction on the stack.
theorem backtraceLoop_run (h : Unwinds unw cursor frames res) (hfuel : frames.length ≤ fuel)
    (out : CString) : backtraceLoop unw fuel cursor (s, out) =
      ((backtraceReport unw res frames).2, s, out ++ (backtraceReport unw res frames).1) := by
  induction h generalizing fuel out with
  | @last cursor hstep =>
      obtain ⟨fuel, rfl⟩ : ∃ n, fuel = n + 1 := ⟨fuel - 1, by simp at hfuel; omega⟩
      have hframe := printFrame_run (s := s) unw cursor out
      unfold backtraceLoop backtraceReport
      cases herror : frameError unw cursor with
      | some message =>
          rw [herror] at hframe
          rw [Action.bind_of_error hframe]
      | none =>
          rw [herror] at hframe
          rw [Action.bind_of_ok hframe]
          rcases hnext : unw.step cursor with ⟨res, next⟩
          rw [hnext] at hstep
          have hres : ¬0 < res := Int.not_lt.mpr hstep
          dsimp only
          rw [if_neg hres]
          by_cases hneg : res < 0
          · rw [if_pos hneg, backtraceReport, if_pos hneg, ← List.append_assoc]
            rfl
          · rw [if_neg hneg, backtraceReport, if_neg hneg, List.append_nil]
            rfl
  | @up cursor frames res hstep hrest ih =>
      obtain ⟨fuel, rfl⟩ : ∃ n, fuel = n + 1 := ⟨fuel - 1, by simp at hfuel; omega⟩
      have hframe := printFrame_run (s := s) unw cursor out
      unfold backtraceLoop backtraceReport
      cases herror : frameError unw cursor with
      | some message =>
          rw [herror] at hframe
          rw [Action.bind_of_error hframe]
      | none =>
          rw [herror] at hframe
          rw [Action.bind_of_ok hframe]
          dsimp only
          rw [if_pos hstep, ih (Nat.le_of_succ_le_succ hfuel), List.append_assoc]

theorem Unwinds.res_le (h : Unwinds unw cursor frames res) : res ≤ 0 := by
  induction h with
  | last hstep => exact hstep
  | up _ _ ih => exact ih

-- The message behind the frames
def backtraceEnd (unw : Unwinder κ γ) (res : Int) (frames : List γ) : CString :=
  (frames.findSome? (frameError unw)).getD
    (if res < 0 then errorLine "error reading ip: " (-res) else [])

def frameShown (unw : Unwinder κ γ) (cursor : γ) : Bool := (frameError unw cursor).isNone

theorem backtraceReport_eq (unw : Unwinder κ γ) (res : Int) (frames : List γ) :
    (backtraceReport unw res frames).1 =
        (frames.takeWhile (frameShown unw)).flatMap (frameText unw) ++
          backtraceEnd unw res frames ∧
      ((backtraceReport unw res frames).2 = .ok () ↔
        (∀ cursor ∈ frames, frameShown unw cursor) ∧ ¬res < 0) := by
  induction frames with
  | nil =>
      by_cases hneg : res < 0
      · simp [backtraceReport, backtraceEnd, hneg]
      · simp [backtraceReport, backtraceEnd, hneg]
  | cons cursor frames ih =>
      cases herror : frameError unw cursor with
      | some message => simp [backtraceReport, backtraceEnd, frameShown, herror]
      | none =>
          obtain ⟨htext, hok⟩ := ih
          have hend : backtraceEnd unw res (cursor :: frames) = backtraceEnd unw res frames := by
            simp [backtraceEnd, herror]
          have hshown : frameShown unw cursor = true := by simp [frameShown, herror]
          rw [hend, List.takeWhile_cons_of_pos hshown, List.flatMap_cons, List.append_assoc,
            ← htext, List.forall_mem_cons]
          simp only [backtraceReport, herror, hok, hshown, true_and]

-- `backtrace` shows the frames in the order of the stack, without those that have no name, up
-- to the first that cannot be read, and returns 0 where there is none and the stack ends well.
theorem backtrace_shows (hinit : 0 ≤ env.unwInitRemote s.debugee)
    (h : Unwinds unw (unw.cursor s.debugee) frames res) (hfuel : frames.length ≤ fuel)
    (out : CString) :
    let run := backtrace env unw fuel (s, out)
    run.2.1 = s ∧
      run.2.2 = out ++ ((frames.takeWhile (frameShown unw)).flatMap (frameText unw) ++
        backtraceEnd unw res frames) ∧
      (run.1 = .ok () ↔ (∀ cursor ∈ frames, frameShown unw cursor) ∧ res = 0) := by
  intro run
  have hnot : ¬env.unwInitRemote s.debugee < 0 := Int.not_lt.mpr hinit
  have hres := h.res_le
  have hrun : run = ((backtraceReport unw res frames).2, s,
      out ++ (backtraceReport unw res frames).1) := by
    refine Eq.trans ?_ (backtraceLoop_run h hfuel out)
    have hfail : Action.failIf (env.unwInitRemote s.debugee < 0) 1 (s, out) = (.ok (), s, out) :=
      Action.failIf_of_not hnot 1 _
    exact Action.bind_of_ok hfail _
  obtain ⟨htext, hok⟩ := backtraceReport_eq unw res frames
  rw [hrun]
  refine ⟨rfl, congrArg (out ++ ·) htext, hok.trans (and_congr_right fun _ => ?_)⟩
  omega

-- Two frames with a name, around one without. The depth stands for the registers.
def threeFrames : Unwinder Unit Nat where
  cursor _ := 2
  step depth := (depth, depth - 1)
  regIp depth := (0, BitVec.ofNat 64 depth)
  regSp depth := (0, BitVec.ofNat 64 depth)
  procName depth := if depth = 1 then (-UNW_ENOINFO, [], 0) else (0, "square".toList, 0)

theorem threeFrames_shown :
    let run := backtrace nopEnv threeFrames 8 (atPrompt (fun _ => 0x90) 0x2000, [])
    run.1 = .ok () ∧ run.2.2 = frameLines 2 2 "square".toList 0 ++
      frameLines 0 0 "square".toList 0 := by
  intro run
  have hframes : Unwinds threeFrames 2 [2, 1, 0] 0 :=
    .up (by decide) (.up (by decide) (.last (by decide)))
  have hshown : run.2.1 = _ ∧ _ ∧ _ := backtrace_shows (by decide) hframes (by decide) []
  have htake : [2, 1, 0].takeWhile (frameShown threeFrames) = [2, 1, 0] := by decide
  have hend : backtraceEnd threeFrames 0 [2, 1, 0] = [] := rfl
  have htexts : frameText threeFrames 2 = frameLines 2 2 "square".toList 0 ∧
      frameText threeFrames 1 = [] ∧
      frameText threeFrames 0 = frameLines 0 0 "square".toList 0 := ⟨rfl, rfl, rfl⟩
  refine ⟨hshown.2.2.mpr ⟨by decide, rfl⟩, hshown.2.1.trans ?_⟩
  rw [htake, hend, List.flatMap_cons, List.flatMap_cons, List.flatMap_singleton, htexts.1,
    htexts.2.1, htexts.2.2, List.nil_append, List.append_nil, List.nil_append]

end Report

end VDebugger
