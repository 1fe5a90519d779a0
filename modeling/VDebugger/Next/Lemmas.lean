import VDebugger.Next
import VDebugger.Finish.Inserted

namespace VDebugger

open Machine

variable {κ : Type} (env : Env κ)

-- What stays as it is where the debugger only looks things up.
structure LooksUp (s t : Debugger κ) : Prop where
  loadAddress : t.loadAddress = s.loadAddress
  breakpoints : t.breakpoints = s.breakpoints
  debugee : t.debugee = s.debugee
  written : t.written = s.written

theorem LooksUp.refl (s : Debugger κ) : LooksUp s s := ⟨rfl, rfl, rfl, rfl⟩

theorem LooksUp.trans (s t u : Debugger κ) (h : LooksUp s t) (h' : LooksUp t u) : LooksUp s u :=
  ⟨h'.loadAddress.trans h.loadAddress, h'.breakpoints.trans h.breakpoints,
    h'.debugee.trans h.debugee, h'.written.trans h.written⟩

theorem getRegsStruct_looksUp : (getRegsStruct env).Keeps LooksUp := by
  intro s
  rcases getRegsStruct_cases env s with ⟨log, h⟩ | ⟨_, log, h⟩
  · rw [h]
    exact ⟨rfl, rfl, rfl, rfl⟩
  · rw [h]
    exact ⟨rfl, rfl, rfl, rfl⟩

theorem getRegValue_looksUp (reg : REGISTER) : (getRegValue env reg).Keeps LooksUp :=
  Action.Keeps.bind LooksUp.trans (getRegsStruct_looksUp env) fun _ => LooksUp.refl

theorem stepInLookup_looksUp : (stepInLookup env).Keeps LooksUp := by
  apply Action.Keeps.bind LooksUp.trans (getRegValue_looksUp env .rip)
  intro _
  have hfetch : (Action.fetch : DebuggerM κ (Debugger κ)).Keeps LooksUp := LooksUp.refl
  apply Action.Keeps.bind LooksUp.trans hfetch
  intro s
  refine Action.Keeps.bind LooksUp.trans (fun t => ⟨rfl, rfl, rfl, rfl⟩) fun _ => ?_
  repeat' split
  all_goals exact LooksUp.refl

-- What the loop that sets the breakpoints meets first: the end of its rows, a row whose
-- address cannot be had, or one with no enabled breakpoint.
inductive RowScan where
  | passed
  | failed
  | unset (addr : UWORD)
  deriving DecidableEq, Repr

def scanRows (table : Table) (loadAddress highPc : UWORD) : List LineRow → RowScan
  | [] => .passed
  | row :: rows =>
      match row.lineaddr with
      | .noEntry | .error => .failed
      | .ok lineAddr =>
          if lineAddr ≥ highPc then .passed
          else if (table.lookup (lineAddr + loadAddress)).enabled then
            scanRows table loadAddress highPc rows
          else .unset (lineAddr + loadAddress)

-- What the loop does at a row with no enabled breakpoint.
def installRow (env : Env κ) (addr : UWORD) : DebuggerM κ Unit := do
  let breakpoint ← enableBreakpoint env { makeBreakpoint addr with temporaryEnable := true }
  saveBreakpoint breakpoint

theorem installRow_cases (addr : UWORD) (s : Debugger κ) :
    (∃ log, installRow env addr s =
        (.ok (), { s.withMem (Function.update s.debugee.mem addr.toNat int3) with
          breakpoints := s.breakpoints.set ⟨addr, readWord s.debugee.mem addr.toNat, true, true⟩
          log })) ∨
      (∃ n, env.fault n = true) ∧
        ∃ log, installRow env addr s = (.error Errors.PTRACE_ERROR.code, { s with log }) := by
  rcases enableBreakpoint_cases env s { makeBreakpoint addr with temporaryEnable := true } with
    ⟨log, h⟩ | ⟨hf, log, h⟩
  · exact .inl ⟨log, Action.bind_of_ok h _⟩
  · exact .inr ⟨hf, log, Action.bind_of_error h _⟩

theorem stepInInstall_cons (highPc lineAddr : UWORD) {row : LineRow} (rows : List LineRow)
    (s : Debugger κ) (hrow : row.lineaddr = .ok lineAddr) (hlow : ¬lineAddr ≥ highPc) :
    stepInInstall env highPc (row :: rows) s =
      (do
        if (s.breakpoints.lookup (lineAddr + s.loadAddress)).enabled then pure ()
        else installRow env (lineAddr + s.loadAddress)
        stepInInstall env highPc rows : DebuggerM κ Unit) s := by
  rw [stepInInstall]
  simp only [hrow, if_neg hlow, Action.bind_of_ok (Action.fetch_apply s)]
  refine (getBreakpointAtAddr_then env s (lineAddr + s.loadAddress) _).trans ?_
  cases (s.breakpoints.lookup (lineAddr + s.loadAddress)).enabled with
  | true => rfl
  | false =>
      simp only [installRow, Bool.false_eq_true, and_false, if_false, Action.bind_assoc]
      rfl

-- What every row's breakpoint keeps, the loop keeps.
theorem stepInInstall_keeps {rel : Debugger κ → Debugger κ → Prop} (hrefl : ∀ s, rel s s)
    (htrans : ∀ s t u, rel s t → rel t u → rel s u)
    (hrow : ∀ addr, (installRow env addr).Keeps rel) (highPc : UWORD) (rows : List LineRow) :
    (stepInInstall env highPc rows).Keeps rel := by
  induction rows with
  | nil => exact hrefl
  | cons row rows ih =>
      intro s
      obtain ⟨lineaddr, linesrc, lineno⟩ := row
      cases lineaddr with
      | noEntry => exact hrefl s
      | error => exact hrefl s
      | ok lineAddr =>
          by_cases hhigh : lineAddr ≥ highPc
          · rw [stepInInstall]
            simp only [if_pos hhigh]
            exact hrefl s
          · rw [stepInInstall_cons env highPc lineAddr rows s rfl hhigh]
            cases (s.breakpoints.lookup (lineAddr + s.loadAddress)).enabled with
            | true => exact ih s
            | false => exact Action.Keeps.bind htrans (hrow _) (fun _ => ih) s

theorem stepInInstall_scan (highPc : UWORD) (rows : List LineRow) (s : Debugger κ) :
    match scanRows s.breakpoints s.loadAddress highPc rows with
    | .passed => stepInInstall env highPc rows s = (.ok (), s)
    | .failed => stepInInstall env highPc rows s = (.error 1, s)
    | .unset addr => ¬s.breakpoints.enabledAt addr ∧ ∃ rest,
        stepInInstall env highPc rows s =
          (do
            installRow env addr
            stepInInstall env highPc rest : DebuggerM κ Unit) s := by
  induction rows with
  | nil => rfl
  | cons row rows ih =>
      obtain ⟨lineaddr, linesrc, lineno⟩ := row
      cases lineaddr with
      | noEntry => rfl
      | error => rfl
      | ok lineAddr =>
          simp only [scanRows]
          by_cases hhigh : lineAddr ≥ highPc
          · rw [if_pos hhigh, stepInInstall]
            simp only [if_pos hhigh]
            rfl
          · rw [if_neg hhigh, stepInInstall_cons env highPc lineAddr rows s rfl hhigh]
            cases hon : (s.breakpoints.lookup (lineAddr + s.loadAddress)).enabled with
            | true => exact ih
            | false =>
                refine ⟨fun h => ?_, rows, rfl⟩
                rw [(Table.lookup_enabled_iff _ _).mpr h] at hon
                cases hon

-- The loop that is to clean up never does: a result of 0 is KEY_NOT_EXISTS.
theorem stepInCleanup_state (highPc : UWORD) (rows : List LineRow) (s : Debugger κ) :
    (stepInCleanup env highPc rows s).2 = s := by
  induction rows with
  | nil => rfl
  | cons row rows ih =>
      obtain ⟨lineaddr, linesrc, lineno⟩ := row
      cases lineaddr with
      | noEntry => rfl
      | error => rfl
      | ok lineAddr =>
          rw [stepInCleanup]
          by_cases hhigh : lineAddr ≥ highPc
          · simp only [if_pos hhigh]
            rfl
          · simp only [if_neg hhigh, Action.bind_of_ok (Action.fetch_apply s)]
            rw [getBreakpointAtAddr_then env s (lineAddr + s.loadAddress)]
            exact ih

end VDebugger
