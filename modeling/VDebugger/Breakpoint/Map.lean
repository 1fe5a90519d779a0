import VDebugger.Breakpoint.Lemmas
import VDebugger.Command

namespace VDebugger

open Machine

variable {κ : Type} {env : Env κ}

section History

inductive TableCall where
  | save (breakpoint : Breakpoint)
  | delete (breakpoint : Breakpoint)
  deriving DecidableEq, Repr

def TableCall.make : TableCall → DebuggerM κ Unit
  | .save breakpoint => saveBreakpoint breakpoint
  | .delete breakpoint => deleteBreakpoint breakpoint

def makeCalls : List TableCall → DebuggerM κ Unit
  | [] => pure ()
  | call :: rest => do
      call.make
      makeCalls rest

-- What a call leaves of the record for an address.
def TableCall.record (a : WORD) (before : Option Breakpoint) : TableCall → Option Breakpoint
  | .save breakpoint => if a = breakpoint.memAddr then some breakpoint else before
  | .delete breakpoint => if a = breakpoint.memAddr then none else before

-- The record that was saved last for an address and not deleted since.
def lastSaved (a : WORD) (calls : List TableCall) : Option Breakpoint :=
  calls.foldl (TableCall.record a) none

def TableCall.table (table : Table) : TableCall → Table
  | .save breakpoint => table.set breakpoint
  | .delete breakpoint => table.delete breakpoint

theorem TableCall.find_table (table : Table) (call : TableCall) (a : WORD) :
    (call.table table).find a = call.record a (table.find a) := by
  cases call with
  | save breakpoint =>
      by_cases ha : a = breakpoint.memAddr
      · subst ha
        simp [TableCall.table, TableCall.record]
      · simp [TableCall.table, TableCall.record, ha, table.find_set_of_ne breakpoint ha]
  | delete breakpoint =>
      by_cases ha : a = breakpoint.memAddr
      · subst ha
        simp [TableCall.table, TableCall.record]
      · simp [TableCall.table, TableCall.record, ha, table.find_delete_of_ne breakpoint ha]

theorem TableCall.make_eq (call : TableCall) (s : Debugger κ) :
    call.make s = (.ok (), { s with breakpoints := call.table s.breakpoints }) := by
  cases call <;> rfl

-- The calls succeed and change the table alone, at each address as the last of them says.
theorem makeCalls_eq (calls : List TableCall) (s : Debugger κ) :
    ∃ table, makeCalls calls s = (.ok (), { s with breakpoints := table }) ∧
      ∀ a, table.find a = calls.foldl (TableCall.record a) (s.breakpoints.find a) := by
  induction calls generalizing s with
  | nil => exact ⟨s.breakpoints, rfl, fun _ => rfl⟩
  | cons call rest ih =>
      obtain ⟨table, hrest, hfind⟩ := ih { s with breakpoints := call.table s.breakpoints }
      refine ⟨table, (Action.bind_of_ok (call.make_eq s) _).trans hrest, fun a => ?_⟩
      rw [hfind, TableCall.find_table]
      rfl

theorem find_after_calls {calls : List TableCall} {s t : Debugger κ}
    (hempty : s.breakpoints = .empty) (hcalls : makeCalls calls s = (.ok (), t)) (a : WORD) :
    t.breakpoints.find a = lastSaved a calls := by
  obtain ⟨table, hrun, hfind⟩ := makeCalls_eq calls s
  rw [hrun] at hcalls
  cases hcalls
  rw [hfind, hempty]
  rfl

end History

section Lookup

-- What is asked of the result where `get_breakpoint_at_addr` is called.
def callersTests : List (Int → Bool) :=
  [fun res => res ≠ 0, fun res => res ≠ 0 ∧ res ≠ Errors.KEY_NOT_EXISTS.code,
    fun res => res = Errors.KEY_NOT_EXISTS.code]

-- A lookup behind these calls gives the record that is there, or a result that one of the
-- tests tells from 0.
structure FindsRecord (env : Env κ) (calls : List TableCall) (a : WORD) (t : Debugger κ) : Prop where
  found : ∀ breakpoint, lastSaved a calls = some breakpoint →
    (getBreakpointAtAddr env a t).1 = .ok (0, breakpoint)
  missing : lastSaved a calls = none → ∀ res breakpoint,
    (getBreakpointAtAddr env a t).1 = .ok (res, breakpoint) → ∃ test ∈ callersTests, test res ≠ test 0

theorem finds_record_iff {calls : List TableCall} {s t : Debugger κ}
    (hempty : s.breakpoints = .empty) (hcalls : makeCalls calls s = (.ok (), t)) (a : WORD) :
    FindsRecord env calls a t ↔
      ∃ breakpoint, lastSaved a calls = some breakpoint ∧ breakpoint.temporaryEnable = false := by
  have hfind := find_after_calls hempty hcalls a
  have hlookup := congrArg Prod.fst (getBreakpointAtAddr_eq env t a)
  constructor
  · intro h
    cases hlast : lastSaved a calls with
    | none =>
        obtain ⟨test, -, hne⟩ := h.missing hlast 0 _ hlookup
        exact absurd rfl hne
    | some breakpoint =>
        have hsame := hlookup.symm.trans (h.found breakpoint hlast)
        refine ⟨breakpoint, rfl, ?_⟩
        cases hsame
        exact t.breakpoints.lookup_temporaryEnable a
  · rintro ⟨breakpoint, hlast, htemporary⟩
    constructor
    · intro other hother
      cases hlast.symm.trans hother
      have hcopy : { breakpoint with temporaryEnable := false } = breakpoint := by
        rw [← htemporary]
      rw [hlookup, Table.lookup_of_find (hfind.trans hlast), hcopy]
    · intro hnone
      cases hlast.symm.trans hnone

section Example

def setAt (a : WORD) (temporaryEnable : Bool) : Breakpoint :=
  { memAddr := a, savedData := 0x90, enabled := true, temporaryEnable }

-- Two records are saved for one address and the other address is left alone by the deletion.
theorem finds_second_record :
    let calls := [.save (setAt 0x2000 true), .save (setAt 0x3000 false),
      .save (setAt 0x2000 false), .delete (setAt 0x3000 false)]
    let s := atPrompt (fun _ => 0x90) 0x2000
    FindsRecord nopEnv calls 0x2000 (makeCalls calls s).2 :=
  (finds_record_iff rfl rfl 0x2000).mpr ⟨_, rfl, rfl⟩

-- The mark of a breakpoint that `next` has set is lost, and an address without a record is
-- found like one with it.
theorem temporary_record_lost :
    let calls := [.save (setAt 0x2000 true)]
    let s := atPrompt (fun _ => 0x90) 0x2000
    (getBreakpointAtAddr nopEnv 0x2000 (makeCalls calls s).2).1 =
        .ok (0, setAt 0x2000 false) ∧
      (getBreakpointAtAddr nopEnv 0x3000 (makeCalls calls s).2).1 =
        .ok (0, makeBreakpoint 0x3000) ∧
      ¬FindsRecord nopEnv calls 0x2000 (makeCalls calls s).2 ∧
      ¬FindsRecord nopEnv calls 0x3000 (makeCalls calls s).2 := by
  refine ⟨rfl, rfl, fun h => ?_, fun h => ?_⟩
  · cases h.found (setAt 0x2000 true) rfl
  · obtain ⟨test, -, hne⟩ := h.missing rfl 0 _ rfl
    exact hne rfl

end Example

end Lookup

end VDebugger
