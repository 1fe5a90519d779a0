import VDebugger.DwarfInfo.Units

namespace VDebugger

open Machine

variable {dbg : DwarfDebug} {rest : List CompUnit} {found : Option CompUnit}

-- What a lookup returns, and the unit it stores.
def CuLookup.answer (dbg : DwarfDebug) : CuLookup → DwRes Unit × Option CompUnit
  | .fromAddr addrOffset => (getCuFromAddr addrOffset dbg).1
  | .fromFileName sourceFileName =>
      match (getCuFromFileName sourceFileName dbg).1 with
      | .ok cu => (.ok (), some cu)
      | .noEntry => (.noEntry, none)
      | .error => (.error, none)

-- A call of the library that the lookup makes on the unit gives DW_DLV_ERROR.
def CuLookup.FailsOn (cu : CompUnit) : CuLookup → Prop
  | .fromAddr _ =>
      cu.die.attrs.lowpc = .error ∨
        (∃ low, cu.die.attrs.lowpc = .ok low) ∧ cu.die.attrs.highpc = .error
  | .fromFileName _ =>
      cu.die.attrs.name = .error ∨
        (∃ name, cu.die.attrs.name = .ok name) ∧ cu.die.attrs.compDir = .error

-- The lookup reads every unit without a failure.
def CuLookup.Reads (cus : List CompUnit) (lookup : CuLookup) : Prop :=
  ∀ cu ∈ cus, ¬lookup.FailsOn cu

-- How a scan of units ends: in front of the first unit if it failed on none, and else behind
-- the one that it failed on.
structure ScanLeft (fails : CompUnit → Prop) (units : List CompUnit) (dbg : DwarfDebug)
    (res : DwRes Unit) (after : DwarfDebug) : Prop where
  failed : (∃ cu ∈ units, fails cu) → res = .error ∧ after.cus = dbg.cus ∧
    dbg.cursor < after.cursor ∧ after.cursor ≤ dbg.cursor + units.length
  read : (∀ cu ∈ units, ¬fails cu) → res ≠ .error ∧ after = { dbg with cursor := 0 }

namespace ScanLeft

variable {fails : CompUnit → Prop} {cu : CompUnit} {res : DwRes Unit} {after : DwarfDebug}

theorem done (hres : res ≠ .error) : ScanLeft fails [] dbg res { dbg with cursor := 0 } where
  failed h := by simp at h
  read _ := ⟨hres, rfl⟩

theorem stop (hfails : fails cu) :
    ScanLeft fails (cu :: rest) dbg .error { dbg with cursor := dbg.cursor + 1 } where
  failed _ := by
    refine ⟨rfl, rfl, Nat.lt_succ_self _, ?_⟩
    simp only [List.length_cons]
    omega
  read h := absurd hfails (h cu List.mem_cons_self)

theorem skip (hreads : ¬fails cu)
    (h : ScanLeft fails rest { dbg with cursor := dbg.cursor + 1 } res after) :
    ScanLeft fails (cu :: rest) dbg res after where
  failed := by
    rintro ⟨unit, hunit, hfails⟩
    have hrest : unit ∈ rest := by
      rcases List.mem_cons.mp hunit with rfl | hrest
      · exact absurd hfails hreads
      · exact hrest
    obtain ⟨hres, hcus, hlow, hhigh⟩ := h.failed ⟨unit, hrest, hfails⟩
    simp only at hlow hhigh
    refine ⟨hres, hcus, by omega, ?_⟩
    simp only [List.length_cons]
    omega
  read hall := h.read fun unit hunit => hall unit (List.mem_cons_of_mem _ hunit)

end ScanLeft

theorem dieContainsAddrOffset_error_iff (cu : CompUnit) (addrOffset : WORD) :
    dieContainsAddrOffset addrOffset cu.die = .error ↔ (CuLookup.fromAddr addrOffset).FailsOn cu := by
  unfold dieContainsAddrOffset getLowHighPcFromDie CuLookup.FailsOn
  cases hl : cu.die.attrs.lowpc with
  | noEntry => simp
  | error => simp
  | ok low => cases hh : cu.die.attrs.highpc <;> simp

theorem getCuFromAddrLoop_left (addrOffset : WORD) (units : List CompUnit) (dbg : DwarfDebug)
    (found : Option CompUnit) :
    ScanLeft (fun cu => (CuLookup.fromAddr addrOffset).FailsOn cu) units dbg
      (getCuFromAddrLoop addrOffset dbg units found).1.1
      (getCuFromAddrLoop addrOffset dbg units found).2 := by
  induction units generalizing dbg found with
  | nil => exact .done (by simp [getCuFromAddrLoop])
  | cons cu rest ih =>
      have herror := dieContainsAddrOffset_error_iff cu addrOffset
      unfold getCuFromAddrLoop
      cases hres : dieContainsAddrOffset addrOffset cu.die with
      | error => exact .stop (herror.mp hres)
      | noEntry => exact .skip (fun h => absurd (herror.mpr h) (by simp [hres])) (ih _ _)
      | ok contains =>
          have hreads : ¬(CuLookup.fromAddr addrOffset).FailsOn cu :=
            fun h => absurd (herror.mpr h) (by simp [hres])
          cases contains with
          | true => exact .skip hreads (ih _ _)
          | false => exact .skip hreads (ih _ _)

-- The part of the result that says whether the lookup failed.
def DwRes.status {α : Type} : DwRes α → DwRes Unit
  | .ok _ => .ok ()
  | .noEntry => .noEntry
  | .error => .error

theorem getCuFromFileNameLoop_left (path : CString) (units : List CompUnit) (dbg : DwarfDebug)
    (found : Option CompUnit) :
    ScanLeft (fun cu => (CuLookup.fromFileName path).FailsOn cu) units dbg
      (getCuFromFileNameLoop path dbg units found).1.status
      (getCuFromFileNameLoop path dbg units found).2 := by
  induction units generalizing dbg found with
  | nil => cases found <;> exact .done (by simp [getCuFromFileNameLoop, DwRes.status])
  | cons cu rest ih =>
      unfold getCuFromFileNameLoop
      cases hname : cu.die.attrs.name with
      | error => exact .stop (.inl hname)
      | noEntry => exact .skip (by simp [CuLookup.FailsOn, hname]) (ih _ _)
      | ok name =>
          cases hdir : cu.die.attrs.compDir with
          | error => exact .stop (.inr ⟨⟨name, hname⟩, hdir⟩)
          | noEntry => exact .skip (by simp [CuLookup.FailsOn, hname, hdir]) (ih _ _)
          | ok dir => exact .skip (by simp [CuLookup.FailsOn, hname, hdir]) (ih _ _)

theorem CuLookup.scanLeft (lookup : CuLookup) (dbg : DwarfDebug) :
    ScanLeft (fun cu => lookup.FailsOn cu) (dbg.cus.drop dbg.cursor) dbg (lookup.answer dbg).1
      (lookup.run dbg) := by
  cases lookup with
  | fromAddr addrOffset => exact getCuFromAddrLoop_left addrOffset _ dbg none
  | fromFileName path =>
      have h := getCuFromFileNameLoop_left path (dbg.cus.drop dbg.cursor) dbg none
      have hstatus : ((CuLookup.fromFileName path).answer dbg).1 =
          (getCuFromFileName path dbg).1.status := by
        simp only [CuLookup.answer]
        cases (getCuFromFileName path dbg).1 <;> rfl
      rw [hstatus]
      exact h

-- Each call of the run answers as the first call would.
def Fresh (cus : List CompUnit) (lookups : List CuLookup) : Prop :=
  ∀ before lookup after, lookups = before ++ lookup :: after →
    lookup.answer (before.foldl CuLookup.run ⟨cus, 0⟩) = lookup.answer ⟨cus, 0⟩

theorem CuLookup.foldl_run_of_reads {cus : List CompUnit} {lookups : List CuLookup}
    (hreads : ∀ lookup ∈ lookups, lookup.Reads cus) :
    lookups.foldl CuLookup.run ⟨cus, 0⟩ = ⟨cus, 0⟩ := by
  induction lookups with
  | nil => rfl
  | cons lookup rest ih =>
      have hrun := ((lookup.scanLeft ⟨cus, 0⟩).read (hreads lookup List.mem_cons_self)).2
      rw [List.foldl_cons, hrun]
      exact ih fun other hother => hreads other (List.mem_cons_of_mem _ hother)

-- Repeated often enough, a lookup comes past the last unit it fails on.
theorem CuLookup.exists_answer (lookup : CuLookup) (dbg : DwarfDebug) :
    ∃ n, (lookup.answer ((List.replicate n lookup).foldl CuLookup.run dbg)).1 ≠ .error := by
  generalize hleft : dbg.cus.length - dbg.cursor = left
  induction left using Nat.strong_induction_on generalizing dbg with
  | _ left ih =>
      by_cases hfails : ∃ cu ∈ dbg.cus.drop dbg.cursor, lookup.FailsOn cu
      · obtain ⟨-, hcus, hlow, hhigh⟩ := (lookup.scanLeft dbg).failed hfails
        have hmore : dbg.cursor < dbg.cus.length := by
          by_contra hend
          obtain ⟨cu, hcu, -⟩ := hfails
          rw [List.drop_eq_nil_of_le (by omega)] at hcu
          exact absurd hcu List.not_mem_nil
        obtain ⟨n, hn⟩ := ih _ (by rw [hcus]; omega) (lookup.run dbg) rfl
        exact ⟨n + 1, hn⟩
      · refine ⟨0, ((lookup.scanLeft dbg).read fun cu hcu hfail => ?_).1⟩
        exact hfails ⟨cu, hcu, hfail⟩

-- A run keeps its answers as long as no call before the last one fails, and each call that
-- fails can be repeated until its answer is another.
theorem lookups_fresh (cus : List CompUnit) :
    (∀ lookups : List CuLookup, (∀ lookup ∈ lookups.dropLast, lookup.Reads cus) →
      Fresh cus lookups) ∧
      ∀ lookup : CuLookup, ¬lookup.Reads cus → ∃ n, ¬Fresh cus (List.replicate n lookup) := by
  constructor
  · rintro lookups hreads before lookup after rfl
    have hbefore : ∀ earlier ∈ before, earlier.Reads cus := by
      intro earlier hearlier
      refine hreads earlier ?_
      rw [List.dropLast_append_of_ne_nil (List.cons_ne_nil _ _)]
      exact List.mem_append_left _ hearlier
    rw [CuLookup.foldl_run_of_reads hbefore]
  · intro lookup hreads
    obtain ⟨n, hn⟩ := lookup.exists_answer ⟨cus, 0⟩
    refine ⟨n + 1, fun hfresh => hn ?_⟩
    have hfails : ∃ cu ∈ cus, lookup.FailsOn cu := by
      simpa only [CuLookup.Reads, not_forall, not_not, exists_prop] using hreads
    rw [hfresh (List.replicate n lookup) lookup [] List.replicate_succ']
    exact ((lookup.scanLeft ⟨cus, 0⟩).failed hfails).1

-- A unit whose low pc cannot be read.
def unreadUnit (name : String) : CompUnit where
  die := .mk { tag := .DW_TAG_compile_unit, lowpc := .error, highpc := .noEntry,
               name := .ok name.toList, compDir := .ok "/src".toList } []
  srclines := .ok 1
  linesFromContext := .ok []

def unreadFirst : List CompUnit := [unreadUnit "print.cpp", sourceUnit "square.cpp" 0x1080 0x20 []]

theorem lookups_by_name_fresh :
    Fresh unreadFirst [.fromFileName "/src/print.cpp".toList, .fromAddr 0x1080] := by
  refine (lookups_fresh unreadFirst).1 _ fun lookup hlookup cu hcu => ?_
  rw [List.mem_singleton.mp hlookup]
  rcases List.mem_pair.mp hcu with rfl | rfl <;>
    simp [CuLookup.FailsOn, unreadUnit, sourceUnit, Die.attrs]

-- After the lookup of an address has failed, the first unit is not found by its name.
theorem unit_lost_by_failure :
    (CuLookup.fromAddr 0x1080).answer ⟨unreadFirst, 0⟩ = (.error, none) ∧
      (CuLookup.fromFileName "/src/print.cpp".toList).answer ⟨unreadFirst, 0⟩ =
        (.ok (), some (unreadUnit "print.cpp")) ∧
      (CuLookup.fromFileName "/src/print.cpp".toList).answer
        ((CuLookup.fromAddr 0x1080).run ⟨unreadFirst, 0⟩) = (.noEntry, none) ∧
      ¬Fresh unreadFirst [.fromAddr 0x1080, .fromFileName "/src/print.cpp".toList] := by
  have hfirst : (CuLookup.fromFileName "/src/print.cpp".toList).answer ⟨unreadFirst, 0⟩ =
      (.ok (), some (unreadUnit "print.cpp")) := rfl
  have hafter : (CuLookup.fromFileName "/src/print.cpp".toList).answer
      ((CuLookup.fromAddr 0x1080).run ⟨unreadFirst, 0⟩) = (.noEntry, none) := rfl
  refine ⟨rfl, hfirst, hafter, fun hfresh => ?_⟩
  have hsame := hafter.symm.trans (hfresh [.fromAddr 0x1080] _ [] rfl)
  rw [hfirst] at hsame
  cases hsame

end VDebugger
