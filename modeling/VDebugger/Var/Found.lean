import VDebugger.Var.Lifetimes
import VDebugger.Var.Walk

namespace VDebugger

open Machine HandlerM Printing

variable {κ σ : Type} {env : Env κ} {var : VarEnv κ} {s : Debugger κ}
  {undef name : CString} {pc : UWORD} {root die child : Die}
  {attrs : DieAttrs} {dies rest : List Die} {path rel : List Nat} {live base : Set (List Nat)}

section Walk

-- The name of a variable is compared with the one that is looked for.
def comparedDies (undef : CString) (varName : Option CString) (dieName : DwRes CString)
    (path : List Nat) : Printing σ DieEvent (DwRes Unit × Option (List Nat)) :=
  match dieName, varName with
  | .error, _ => pure (.error, none)
  | .noEntry, some name => pure (.ok (), if name = undef then some path else none)
  | .ok dieName, some name => pure (.ok (), if name = dieName then some path else none)
  | _, none => Action.block

mutual

-- `get_local_var_from_name`, and what it does with the DIEs. `path` is the DIE of the call.
def localVarDies (undef : CString) (varName : Option CString) (pc : UWORD) (path : List Nat) :
    Die → Printing σ DieEvent (DwRes Unit × Option (List Nat))
  | .mk attrs children => do
      write [.used path]
      match attrs.tag with
      | .DW_TAG_variable | .DW_TAG_formal_parameter => do
          write [.used path]
          comparedDies undef varName attrs.name path
      | .DW_TAG_lexical_block | .DW_TAG_subprogram | .DW_TAG_inlined_subroutine => do
          write [.used path]
          match getLowHighPcFromDie (.mk attrs children) with
          | .noEntry => pure (.noEntry, none)
          | .error => pure (.error, none)
          | .ok (low, high) =>
              if low > pc || high < pc then pure (.ok (), none)
              else do
                write [.used path]
                firstChildDies undef varName pc path children
      | _ => pure (.ok (), none)

-- The first child is freed where it has been gone through, also if it is the variable.
def firstChildDies (undef : CString) (varName : Option CString) (pc : UWORD) (path : List Nat) :
    List Die → Printing σ DieEvent (DwRes Unit × Option (List Nat))
  | [] => pure (.ok (), none)
  | child :: siblings => do
      write [.made (path ++ [0])]
      let (res, varDie) ← localVarDies undef varName pc (path ++ [0]) child
      if res = .ok () ∧ varDie = none then siblingDies undef varName pc path 0 siblings
      else do
        write [.freed (path ++ [0])]
        pure (res, varDie)

-- A sibling is not freed if it is the variable.
def siblingDies (undef : CString) (varName : Option CString) (pc : UWORD) (path : List Nat)
    (place : Nat) : List Die → Printing σ DieEvent (DwRes Unit × Option (List Nat))
  | [] => do
      write [.used (path ++ [place]), .freed (path ++ [place])]
      pure (.ok (), none)
  | die :: siblings => do
      write [.used (path ++ [place]), .made (path ++ [place + 1])]
      let (res, varDie) ← localVarDies undef varName pc (path ++ [place + 1]) die
      write [.freed (path ++ [place])]
      if res = .ok () ∧ varDie = none then
        siblingDies undef varName pc path (place + 1) siblings
      else do
        write (if varDie = some (path ++ [place + 1]) then [] else [.freed (path ++ [place + 1])])
        pure (if res = .noEntry then .ok () else res, varDie)

end

end Walk

section Places

-- The DIE that the walk gives out has been freed, or is the one that it was given.
def givenUp (rel : List Nat) : Bool := rel.getLast?.all (· == 0)

-- The DIEs that are live behind the walk.
def leftDies (path : List Nat) (place : Option (List Nat)) (live : Set (List Nat)) :
    Set (List Nat) :=
  match place with
  | none => live
  | some rel => if givenUp rel then live else insert (path ++ rel) live

-- The place of what the walk gives, from the DIE that it starts at.
structure FindsAt (undef name : CString) (pc : UWORD) (die : Die)
    (result : Option (DwRes Unit × Option Die)) (res : DwRes Unit) (place : Option (List Nat)) :
    Prop where
  result : result = some (res, place.bind (nodeAt Die.children die))
  endPlace : ∀ rel, place = some rel → ∃ below, EndPlace undef name pc die rel below ∧
    Named undef name below
  ok : ∀ rel, place = some rel → res = .ok ()

-- Counted from the siblings that come behind `n` others.
def shift (n : Nat) : List Nat → List Nat
  | [] => []
  | i :: rel => (n + i) :: rel

namespace FindsAt

variable {res : DwRes Unit} {place : Option (List Nat)}

theorem missing {result : Option (DwRes Unit × Option Die)} (h : result = some (res, none)) :
    FindsAt undef name pc die result res none where
  result := h
  endPlace _ h := nomatch h
  ok _ h := nomatch h

theorem bind_eq {result : Option (DwRes Unit × Option Die)}
    (h : FindsAt undef name pc die result res (some rel)) :
    ∃ below, nodeAt Die.children die rel = some below ∧ result = some (.ok (), some below) := by
  obtain ⟨below, hplace, -⟩ := h.endPlace rel rfl
  have hnode : nodeAt Die.children die rel = some below := hplace.reaches.nodeAt_eq
  refine ⟨below, hnode, ?_⟩
  rw [h.result, h.ok rel rfl, Option.bind_some, hnode]

theorem path_ne_nil (henters : Enters pc (.mk attrs dies))
    {result : Option (DwRes Unit × Option Die)}
    (h : FindsAt undef name pc (.mk attrs rest) result res (some rel)) : rel ≠ [] := by
  obtain ⟨below, hplace, -⟩ := h.endPlace rel rfl
  exact hplace.path_ne_nil henters

theorem head (henters : Enters pc (.mk attrs dies))
    {result : Option (DwRes Unit × Option Die)}
    (h : FindsAt undef name pc child result res place) (rest : List Die) :
    FindsAt undef name pc (.mk attrs (child :: rest)) result res (place.map (0 :: ·)) := by
  cases place with
  | none => exact .missing h.result
  | some rel =>
      refine ⟨h.result, ?_, fun _ _ => h.ok rel rfl⟩
      rintro _ ⟨⟩
      obtain ⟨below, hplace, hnamed⟩ := h.endPlace rel rfl
      exact ⟨below, hplace.head henters rest, hnamed⟩

-- The walk ends in the first child, ...
theorem first (henters : Enters pc (.mk attrs dies))
    (h : FindsAt undef name pc child (getLocalVarFromName undef (some name) pc child) res place)
    (hends : ¬(res = .ok () ∧ place = none)) (rest : List Die) :
    FindsAt undef name pc (.mk attrs (child :: rest))
      (localVarChildren undef (some name) pc (child :: rest)) res (place.map (0 :: ·)) := by
  have hresult : localVarChildren undef (some name) pc (child :: rest) =
      getLocalVarFromName undef (some name) pc child := by
    unfold localVarChildren
    cases place with
    | none =>
        rw [h.result]
        cases res with
        | ok => exact absurd ⟨rfl, rfl⟩ hends
        | noEntry | error => rfl
    | some rel =>
        obtain ⟨below, -, hfound⟩ := h.bind_eq
        rw [hfound]
  rw [hresult]
  exact h.head henters rest

-- ... or in a sibling, where it does not end with DW_DLV_NO_ENTRY, ...
theorem sibling (henters : Enters pc (.mk attrs dies))
    (h : FindsAt undef name pc child (getLocalVarFromName undef (some name) pc child) res place)
    (hends : ¬(res = .ok () ∧ place = none)) (rest : List Die) :
    FindsAt undef name pc (.mk attrs (child :: rest))
      (localVarSiblings undef (some name) pc (child :: rest))
      (if res = .noEntry then .ok () else res) (place.map (0 :: ·)) := by
  cases place with
  | none =>
      refine .missing ?_
      unfold localVarSiblings
      rw [h.result]
      cases res with
      | ok => exact absurd ⟨rfl, rfl⟩ hends
      | noEntry | error => rfl
  | some rel =>
      obtain rfl : res = .ok () := h.ok rel rfl
      have hresult : localVarSiblings undef (some name) pc (child :: rest) =
          getLocalVarFromName undef (some name) pc child := by
        obtain ⟨below, -, hfound⟩ := h.bind_eq
        unfold localVarSiblings
        rw [hfound]
      rw [hresult]
      exact h.head henters rest

-- ... or it goes on behind the child.
theorem tail (henters : Enters pc (.mk attrs dies))
    (h : FindsAt undef name pc child (getLocalVarFromName undef (some name) pc child) (.ok ()) none)
    (hrest : FindsAt undef name pc (.mk attrs rest)
      (localVarSiblings undef (some name) pc rest) res place) :
    FindsAt undef name pc (.mk attrs (child :: rest))
      (localVarSiblings undef (some name) pc rest) res (place.map (shift 1)) := by
  obtain ⟨result, hchild, hends, hnoEntry⟩ := getLocalVarFromName_walk undef name pc child
  obtain rfl : result = (.ok (), none) := Option.some.inj (hchild.symm.trans h.result)
  have hnone : ∀ path die, ¬StopPlace undef name pc child path die := by
    cases hends with
    | nothing _ hnone => exact hnone
  have hleads : ¬LeadsToRangeless pc child := fun hleads => nomatch hnoEntry.mpr hleads
  cases place with
  | none => exact .missing hrest.result
  | some rel =>
      obtain ⟨i, rel, rfl⟩ := List.exists_cons_of_ne_nil (hrest.path_ne_nil henters)
      have hshift : shift 1 (i :: rel) = (i + 1) :: rel := by rw [shift, Nat.add_comm]
      rw [Option.map_some, hshift]
      refine ⟨?_, ?_, fun _ _ => hrest.ok _ rfl⟩
      · rw [hrest.result]
        rfl
      · rintro _ ⟨⟩
        obtain ⟨below, hplace, hnamed⟩ := hrest.endPlace _ rfl
        exact ⟨below, hplace.tail henters hnone hleads, hnamed⟩

end FindsAt

theorem givenUp_cons (i : Nat) (h : rel ≠ []) : givenUp (i :: rel) = givenUp rel := by
  unfold givenUp
  rw [List.getLast?_cons_of_ne_nil h]

theorem append_ne_self (h : rel ≠ []) : path ++ rel ≠ path := fun heq => h (by simpa using heq)

-- A child is freed behind its own walk, ...
theorem leftDies_freed {i : Nat} (hbase : path ++ [i] ∉ base) (h : rel ≠ []) :
    leftDies (path ++ [i]) (some rel) (insert (path ++ [i]) base) \ {path ++ [i]} =
      leftDies path (some (i :: rel)) base := by
  have hassoc : path ++ [i] ++ rel = path ++ i :: rel := by rw [List.append_assoc]; rfl
  simp only [leftDies, givenUp_cons i h, hassoc]
  split_ifs
  · exact Set.insert_sdiff_self_of_notMem hbase
  · have hnot : path ++ [i] ∉ insert (path ++ i :: rel) base := by
      rw [Set.mem_insert_iff, ← hassoc]
      exact fun hmem => hmem.elim (fun heq => append_ne_self h heq.symm) hbase
    rw [Set.insert_comm]
    exact Set.insert_sdiff_self_of_notMem hnot

-- ... the first one also where it is what has been found.
theorem leftDies_first (place : Option (List Nat)) (hbase : path ++ [0] ∉ base) :
    leftDies (path ++ [0]) place (insert (path ++ [0]) base) \ {path ++ [0]} =
      leftDies path (place.map (0 :: ·)) base := by
  cases place with
  | none => exact Set.insert_sdiff_self_of_notMem hbase
  | some rel =>
      cases rel with
      | nil => exact Set.insert_sdiff_self_of_notMem hbase
      | cons i rel => exact leftDies_freed hbase (List.cons_ne_nil i rel)

theorem mem_leftDies {place : Option (List Nat)} {handle : List Nat} (h : handle ∈ live) :
    handle ∈ leftDies path place live := by
  unfold leftDies
  split
  · exact h
  · split_ifs
    · exact h
    · exact Set.mem_insert_of_mem _ h

-- A sibling is freed unless it is what has been found.
theorem leftDies_sibling (place : Option (List Nat)) (k : Nat) (hbase : path ++ [k + 1] ∉ base) :
    Lifetimes (leftDies (path ++ [k + 1]) place (insert (path ++ [k + 1]) base))
      (if place.map (path ++ [k + 1] ++ ·) = some (path ++ [k + 1]) then []
        else [.freed (path ++ [k + 1])])
      (leftDies path (place.map ((k + 1) :: ·)) base) := by
  cases place with
  | none => exact .freed_last hbase
  | some rel =>
      cases rel with
      | nil =>
          have hfound : (some []).map (path ++ [k + 1] ++ ·) = some (path ++ [k + 1]) := by
            rw [Option.map_some, List.append_nil]
          rw [if_pos hfound]
          exact .done _
      | cons i rel =>
          have hother : (some (i :: rel)).map (path ++ [k + 1] ++ ·) ≠ some (path ++ [k + 1]) :=
            fun heq => append_ne_self (List.cons_ne_nil i rel) (Option.some.inj heq)
          rw [if_neg hother, Option.map_some, ← leftDies_freed hbase (List.cons_ne_nil i rel)]
          exact .singleton_freed (mem_leftDies (Set.mem_insert _ _))

-- A DIE elsewhere is freed in the meantime.
theorem leftDies_other {place : Option (List Nat)} {other : List Nat} (hnot : other ∉ live)
    (hne : ∀ rel, path ++ rel ≠ other) :
    leftDies path place (insert other live) \ {other} = leftDies path place live := by
  cases place with
  | none => exact Set.insert_sdiff_self_of_notMem hnot
  | some rel =>
      simp only [leftDies]
      split_ifs
      · exact Set.insert_sdiff_self_of_notMem hnot
      · rw [Set.insert_comm]
        exact Set.insert_sdiff_self_of_notMem fun hmem =>
          (Set.mem_insert_iff.mp hmem).elim (fun heq => hne rel heq.symm) hnot

theorem shift_shift (m n : Nat) (rel : List Nat) : shift m (shift n rel) = shift (m + n) rel := by
  cases rel with
  | nil => rfl
  | cons i rel => rw [shift, shift, shift, Nat.add_assoc]

theorem map_child (path : List Nat) (i : Nat) (place : Option (List Nat)) :
    place.map (path ++ [i] ++ ·) = (place.map (i :: ·)).map (path ++ ·) := by
  rw [Option.map_map]
  congr 1
  funext rel
  exact List.append_assoc path [i] rel

end Places

section Main

variable {place : Option (List Nat)}

-- Nothing below the DIE is live.
def NoneBelow (path : List Nat) (live : Set (List Nat)) : Prop := ∀ i more, path ++ i :: more ∉ live

theorem NoneBelow.below_child (h : NoneBelow path base) (i : Nat) :
    NoneBelow (path ++ [i]) (insert (path ++ [i]) base) := by
  intro j more hmem
  rw [Set.mem_insert_iff] at hmem
  rcases hmem with heq | hmem
  · exact append_ne_self (List.cons_ne_nil _ _) heq
  · rw [List.append_assoc] at hmem
    exact h i (j :: more) hmem

section Equations

theorem localVarDies_variable (hvariable : (Die.mk attrs dies).isVariable = true) :
    (localVarDies undef (some name) pc path (.mk attrs dies) : Printing σ DieEvent _) =
      (do
        write [.used path]
        write [.used path]
        comparedDies undef (some name) attrs.name path) := by
  unfold Die.isVariable Die.attrs at hvariable
  unfold localVarDies
  cases htag : attrs.tag <;> simp only [htag, Bool.false_eq_true] at hvariable
  all_goals rfl

-- What comes of the comparison.
theorem comparedDies_finds (undef name : CString) (pc : UWORD)
    (hvariable : (Die.mk attrs dies).isVariable = true) (path : List Nat) :
    ∃ res place, (comparedDies undef (some name) attrs.name path : Printing σ DieEvent _).Gives
        (res, place.map (path ++ ·)) [] ∧
      FindsAt undef name pc (.mk attrs dies)
        (getLocalVarFromName undef (some name) pc (.mk attrs dies)) res place ∧
      (place = none ∨ place = some []) := by
  obtain ⟨hunread, hmissing, hread⟩ := getLocalVarFromName_compared undef name pc hvariable
  have hfound (hnamed : Named undef name (.mk attrs dies))
      (hresult : getLocalVarFromName undef (some name) pc (.mk attrs dies) =
        some (.ok (), some (.mk attrs dies))) : FindsAt undef name pc (.mk attrs dies)
          (getLocalVarFromName undef (some name) pc (.mk attrs dies)) (.ok ()) (some []) := by
    refine ⟨hresult, ?_, fun _ _ => rfl⟩
    rintro _ ⟨⟩
    exact ⟨_, endPlace_here (.inl hnamed), hnamed⟩
  have hpath : (some ([] : List Nat)).map (path ++ ·) = some path := by
    rw [Option.map_some, List.append_nil]
  cases hname : attrs.name with
  | error => exact ⟨_, none, Gives.pure _, .missing (hunread hname), .inl rfl⟩
  | noEntry =>
      have hresult := hmissing hname
      by_cases hundef : name = undef
      · refine ⟨.ok (), some [], ?_, hfound ⟨hvariable, .inr ⟨hname, hundef⟩⟩ ?_, .inr rfl⟩
        · rw [hpath, comparedDies, if_pos hundef]
          exact Gives.pure _
        · rw [hresult, if_pos hundef]
      · rw [if_neg hundef] at hresult
        refine ⟨.ok (), none, ?_, .missing hresult, .inl rfl⟩
        rw [comparedDies, if_neg hundef]
        exact Gives.pure _
  | ok dieName =>
      have hresult := hread dieName hname
      by_cases hsame : name = dieName
      · refine ⟨.ok (), some [], ?_, hfound ⟨hvariable, .inl (hsame ▸ hname)⟩ ?_, .inr rfl⟩
        · rw [hpath, comparedDies, if_pos hsame]
          exact Gives.pure _
        · rw [hresult, if_pos hsame]
      · rw [if_neg hsame] at hresult
        refine ⟨.ok (), none, ?_, .missing hresult, .inl rfl⟩
        rw [comparedDies, if_neg hsame]
        exact Gives.pure _

theorem localVarDies_enters (henters : Enters pc (.mk attrs dies)) :
    (localVarDies undef (some name) pc path (.mk attrs dies) : Printing σ DieEvent _) =
      (do
        write [.used path]
        write [.used path]
        write [.used path]
        firstChildDies undef (some name) pc path dies) := by
  obtain ⟨hblock, low, high, hrange, hlow, hhigh⟩ := henters
  have hinside : ¬(decide (low > pc) || decide (high < pc)) = true := by
    simp only [Bool.or_eq_true, decide_eq_true_eq]
    bv_omega
  unfold Die.isBlock Die.attrs at hblock
  unfold localVarDies
  cases htag : attrs.tag <;> simp only [htag, Bool.false_eq_true] at hblock
  all_goals
    rw [hrange]
    dsimp only
    rw [if_neg hinside]

-- A DIE whose children are not looked at gives no variable but itself.
theorem localVarDies_outside (hvariable : ¬(Die.mk attrs dies).isVariable = true)
    (hout : ¬Enters pc (.mk attrs dies)) (path : List Nat) :
    ∃ res events, (localVarDies undef (some name) pc path (.mk attrs dies) :
        Printing σ DieEvent _).Gives (res, none) events ∧
      getLocalVarFromName undef (some name) pc (.mk attrs dies) = some (res, none) ∧
      ∀ event ∈ events, event = .used path := by
  by_cases hblock : (Die.mk attrs dies).isBlock = true
  · rw [getLocalVarFromName_block hblock]
    unfold Die.isBlock Die.attrs at hblock
    unfold localVarDies
    cases hrange : getLowHighPcFromDie (.mk attrs dies) with
    | ok range =>
        obtain ⟨low, high⟩ := range
        have houtside : (decide (low > pc) || decide (high < pc)) = true := by
          by_contra hinside
          simp only [Bool.or_eq_true, decide_eq_true_eq] at hinside
          exact hout ⟨hblock, low, high, hrange, by bv_omega, by bv_omega⟩
        refine ⟨.ok (), [.used path, .used path], ?_, if_pos houtside, by simp⟩
        cases htag : attrs.tag <;> simp only [htag, Bool.false_eq_true] at hblock
        all_goals
          dsimp only
          rw [if_pos houtside]
          exact (Gives.write _).bind ((Gives.write _).bind (Gives.pure _))
    | noEntry =>
        refine ⟨.noEntry, [.used path, .used path], ?_, rfl, by simp⟩
        cases htag : attrs.tag <;> simp only [htag, Bool.false_eq_true] at hblock
        all_goals exact (Gives.write _).bind ((Gives.write _).bind (Gives.pure _))
    | error =>
        refine ⟨.error, [.used path, .used path], ?_, rfl, by simp⟩
        cases htag : attrs.tag <;> simp only [htag, Bool.false_eq_true] at hblock
        all_goals exact (Gives.write _).bind ((Gives.write _).bind (Gives.pure _))
  · have hresult :
        getLocalVarFromName undef (some name) pc (.mk attrs dies) = some (.ok (), none) := by
      unfold Die.isVariable Die.attrs at hvariable
      unfold Die.isBlock Die.attrs at hblock
      unfold getLocalVarFromName
      cases htag : attrs.tag <;> simp_all
    refine ⟨.ok (), [.used path], ?_, hresult, by simp⟩
    unfold Die.isVariable Die.attrs at hvariable
    unfold Die.isBlock Die.attrs at hblock
    unfold localVarDies
    cases htag : attrs.tag <;> simp only [htag, not_true_eq_false] at hvariable hblock
    all_goals exact (Gives.write _).bind (Gives.pure _)

end Equations

mutual

theorem localVarDies_finds (undef name : CString) (pc : UWORD) (die : Die) (path : List Nat) :
    ∃ res place events,
      (localVarDies undef (some name) pc path die : Printing σ DieEvent _).Gives
        (res, place.map (path ++ ·)) events ∧
      FindsAt undef name pc die (getLocalVarFromName undef (some name) pc die) res place ∧
      ∀ live, path ∈ live → NoneBelow path live →
        Lifetimes live events (leftDies path place live) := by
  obtain ⟨attrs, children⟩ := die
  by_cases hvariable : (Die.mk attrs children).isVariable = true
  · obtain ⟨res, place, hgives, hfinds, hhere⟩ := comparedDies_finds undef name pc hvariable path
    rw [localVarDies_variable hvariable]
    refine ⟨res, place, _, (Gives.write _).bind ((Gives.write _).bind hgives), hfinds,
      fun live hpath _ => ?_⟩
    have hleft : leftDies path place live = live := by rcases hhere with rfl | rfl <;> rfl
    rw [hleft]
    exact .used hpath (.used hpath (.done _))
  by_cases henters : Enters pc (.mk attrs children)
  · obtain ⟨res, place, events, hgives, hfinds, hlives⟩ :=
      firstChildDies_finds undef name pc attrs children henters path
    rw [localVarDies_enters henters, getLocalVarFromName_enters henters]
    refine ⟨res, place, _,
      (Gives.write _).bind ((Gives.write _).bind ((Gives.write _).bind hgives)), hfinds,
      fun live hpath hbelow => ?_⟩
    exact .used hpath (.used hpath (.used hpath (hlives live hbelow)))
  · obtain ⟨res, events, hgives, hresult, hused⟩ := localVarDies_outside hvariable henters path
    exact ⟨res, none, events, hgives, .missing hresult, fun live hpath _ => .used_only hpath hused⟩

theorem firstChildDies_finds (undef name : CString) (pc : UWORD) (attrs : DieAttrs)
    (dies : List Die) (henters : Enters pc (.mk attrs dies)) (path : List Nat) :
    ∃ res place events,
      (firstChildDies undef (some name) pc path dies : Printing σ DieEvent _).Gives
        (res, place.map (path ++ ·)) events ∧
      FindsAt undef name pc (.mk attrs dies) (localVarChildren undef (some name) pc dies) res
        place ∧
      ∀ live, NoneBelow path live → Lifetimes live events (leftDies path place live) := by
  match dies with
  | [] => exact ⟨_, none, _, Gives.pure _, .missing (by unfold localVarChildren; rfl),
      fun live _ => .done live⟩
  | child :: siblings =>
      obtain ⟨res, place, events, hgives, hfinds, hlives⟩ :=
        localVarDies_finds undef name pc child (path ++ [0])
      by_cases hgoes : res = .ok () ∧ place = none
      · obtain ⟨rfl, rfl⟩ := hgoes
        obtain ⟨res, place, more, hmore, hrest, hleft⟩ :=
          siblingDies_finds undef name pc attrs siblings henters path 0
        have hresult : localVarChildren undef (some name) pc (child :: siblings) =
            localVarSiblings undef (some name) pc siblings := by
          unfold localVarChildren
          rw [hfinds.result]
          rfl
        have hall : (firstChildDies undef (some name) pc path (child :: siblings) :
            Printing σ DieEvent _).Gives (res, (place.map (shift 1)).map (path ++ ·))
              ([.made (path ++ [0])] ++ (events ++ more)) := by
          unfold firstChildDies
          refine (Gives.write _).bind (hgives.bind ?_)
          rw [Option.map_map]
          exact hmore
        refine ⟨res, place.map (shift 1), _, hall, hresult ▸ hfinds.tail henters hrest, ?_⟩
        intro live hlive
        exact .made (hlive 0 []) ((hlives _ (Set.mem_insert _ _) (hlive.below_child 0)).append
          (hleft live hlive))
      · have hall : (firstChildDies undef (some name) pc path (child :: siblings) :
            Printing σ DieEvent _).Gives (res, (place.map (0 :: ·)).map (path ++ ·))
              ([.made (path ++ [0])] ++ (events ++ [.freed (path ++ [0])])) := by
          have hstops : ¬(res = .ok () ∧ place.map (path ++ [0] ++ ·) = none) := by
            rwa [Option.map_eq_none_iff]
          unfold firstChildDies
          refine (Gives.write _).bind (hgives.bind ?_)
          dsimp only
          rw [if_neg hstops, map_child]
          exact (Gives.write _).bind (Gives.pure _)
        refine ⟨res, place.map (0 :: ·), _, hall, hfinds.first henters hgoes siblings, ?_⟩
        intro live hlive
        refine .made (hlive 0 []) ((hlives _ (Set.mem_insert _ _) (hlive.below_child 0)).append ?_)
        rw [← leftDies_first place (hlive 0 [])]
        exact .singleton_freed (mem_leftDies (Set.mem_insert _ _))

theorem siblingDies_finds (undef name : CString) (pc : UWORD) (attrs : DieAttrs)
    (dies : List Die) (henters : Enters pc (.mk attrs dies)) (path : List Nat) (k : Nat) :
    ∃ res place events,
      (siblingDies undef (some name) pc path k dies : Printing σ DieEvent _).Gives
        (res, place.map fun rel => path ++ shift (k + 1) rel) events ∧
      FindsAt undef name pc (.mk attrs dies) (localVarSiblings undef (some name) pc dies) res
        place ∧
      ∀ base, NoneBelow path base → Lifetimes (insert (path ++ [k]) base) events
        (leftDies path (place.map (shift (k + 1))) base) := by
  match dies with
  | [] =>
      have hall : (siblingDies undef (some name) pc path k [] : Printing σ DieEvent _).Gives
          (.ok (), none) [.used (path ++ [k]), .freed (path ++ [k])] := by
        unfold siblingDies
        exact (Gives.write _).bind (Gives.pure _)
      refine ⟨_, none, _, hall, .missing (by unfold localVarSiblings; rfl), fun base hbase => ?_⟩
      exact .used (Set.mem_insert _ _) (.freed_last (hbase k []))
  | die :: siblings =>
      obtain ⟨res, place, events, hgives, hfinds, hlives⟩ :=
        localVarDies_finds undef name pc die (path ++ [k + 1])
      have hmoves (base : Set (List Nat)) (hbase : NoneBelow path base) :
          Lifetimes (insert (path ++ [k]) base)
            ([.used (path ++ [k]), .made (path ++ [k + 1])] ++ (events ++ [.freed (path ++ [k])]))
            (leftDies (path ++ [k + 1]) place (insert (path ++ [k + 1]) base)) := by
        have hne : path ++ [k + 1] ≠ path ++ [k] := by simp
        have hnew : path ++ [k + 1] ∉ insert (path ++ [k]) base := fun hmem =>
          (Set.mem_insert_iff.mp hmem).elim hne (hbase (k + 1) [])
        have hold : path ++ [k] ∉ insert (path ++ [k + 1]) base := fun hmem =>
          (Set.mem_insert_iff.mp hmem).elim hne.symm (hbase k [])
        have hbelow : NoneBelow (path ++ [k + 1])
            (insert (path ++ [k + 1]) (insert (path ++ [k]) base)) := by
          intro i more hmem
          rw [List.append_assoc] at hmem
          rcases Set.mem_insert_iff.mp hmem with heq | hmem
          · simp at heq
          · rcases Set.mem_insert_iff.mp hmem with heq | hmem
            · simp at heq
            · exact hbase (k + 1) (i :: more) hmem
        refine .used (Set.mem_insert _ _) (.made hnew ?_)
        refine (hlives _ (Set.mem_insert _ _) hbelow).append ?_
        rw [Set.insert_comm, ← leftDies_other hold fun rel heq => by simp at heq]
        exact .singleton_freed (mem_leftDies (Set.mem_insert _ _))
      by_cases hgoes : res = .ok () ∧ place = none
      · obtain ⟨rfl, rfl⟩ := hgoes
        obtain ⟨res, place, more, hmore, hrest, hleft⟩ :=
          siblingDies_finds undef name pc attrs siblings henters path (k + 1)
        have hresult : localVarSiblings undef (some name) pc (die :: siblings) =
            localVarSiblings undef (some name) pc siblings := by
          rw [localVarSiblings, hfinds.result]
          rfl
        have hshift : shift (k + 1) ∘ shift 1 = shift (k + 1 + 1) := funext (shift_shift (k + 1) 1)
        have hall : (siblingDies undef (some name) pc path k (die :: siblings) :
            Printing σ DieEvent _).Gives
              (res, (place.map (shift 1)).map fun rel => path ++ shift (k + 1) rel)
              ([.used (path ++ [k]), .made (path ++ [k + 1])] ++
                (events ++ ([.freed (path ++ [k])] ++ more))) := by
          unfold siblingDies
          refine (Gives.write _).bind (hgives.bind ((Gives.write _).bind ?_))
          have hpath : (fun rel => path ++ shift (k + 1) rel) ∘ shift 1 =
              fun rel => path ++ shift (k + 1 + 1) rel :=
            congrArg (fun (f : List Nat → List Nat) rel => path ++ f rel) hshift
          rw [Option.map_map, hpath]
          exact hmore
        refine ⟨res, place.map (shift 1), _, hall, hresult ▸ hfinds.tail henters hrest, ?_⟩
        intro base hbase
        rw [Option.map_map, hshift]
        have hlife := (hmoves base hbase).append (hleft base hbase)
        rwa [List.append_assoc, List.append_assoc] at hlife
      · have hends : ¬(res = .ok () ∧ place.map (path ++ [k + 1] ++ ·) = none) := by
          rwa [Option.map_eq_none_iff]
        have hshift : shift (k + 1) ∘ (0 :: ·) = ((k + 1) :: ·) := rfl
        have hall : (siblingDies undef (some name) pc path k (die :: siblings) :
            Printing σ DieEvent _).Gives (if res = .noEntry then .ok () else res,
              (place.map (0 :: ·)).map fun rel => path ++ shift (k + 1) rel)
              ([.used (path ++ [k]), .made (path ++ [k + 1])] ++
                (events ++ ([.freed (path ++ [k])] ++
                  ((if place.map (path ++ [k + 1] ++ ·) = some (path ++ [k + 1]) then []
                    else [.freed (path ++ [k + 1])]) ++ [])))) := by
          unfold siblingDies
          refine (Gives.write _).bind (hgives.bind ((Gives.write _).bind ?_))
          rw [if_neg hends]
          refine (Gives.write _).bind ?_
          rw [map_child, Option.map_map, Option.map_map]
          exact Gives.pure _
        refine ⟨_, place.map (0 :: ·), _, hall, hfinds.sibling henters hgoes siblings, ?_⟩
        intro base hbase
        rw [Option.map_map, hshift, List.append_nil]
        have hlife := (hmoves base hbase).append (leftDies_sibling place k (hbase (k + 1) []))
        rwa [List.append_assoc, List.append_assoc] at hlife

end

end Main

section Given

-- `get_local_var_from_name` gives the DIE at this place of the tree, or a null DIE.
structure GivesPlace (undef name : CString) (pc : UWORD) (root : Die)
    (place : Option (List Nat)) : Prop where
  walk : ∃ events, (localVarDies undef (some name) pc [] root : Printing Unit DieEvent _).Gives
    (.ok (), place) events
  result : getLocalVarFromName undef (some name) pc root =
    some (.ok (), place.bind (nodeAt Die.children root))

-- What it gives has not been freed by then.
def GivesLive (undef name : CString) (pc : UWORD) (root : Die) (path : List Nat) : Prop :=
  ∃ events after, (localVarDies undef (some name) pc [] root : Printing Unit DieEvent _).Gives
    (.ok (), some path) events ∧ Lifetimes {[]} events after ∧ path ∈ after

-- The one place that the walk gives, and what is live behind it.
theorem givesPlace_unique (undef name : CString) (pc : UWORD) (root : Die) :
    ∃ res place, FindsAt undef name pc root (getLocalVarFromName undef (some name) pc root) res
        place ∧
      (∀ other, GivesPlace undef name pc root other ↔ res = .ok () ∧ other = place) ∧
      ∀ path, place = some path →
        (GivesLive undef name pc root path ↔ path ∈ leftDies [] (some path) {[]}) := by
  obtain ⟨res, place, events, hgives, hfinds, hlives⟩ :=
    localVarDies_finds (σ := Unit) undef name pc root []
  have hpaths : place.map (([] : List Nat) ++ ·) = place := by cases place <;> rfl
  rw [hpaths] at hgives
  have hsame {other : DwRes Unit × Option (List Nat)} {others : List DieEvent}
      (h : (localVarDies undef (some name) pc [] root : Printing Unit DieEvent _).Gives
        other others) : (res, place) = other ∧ events = others := by
    obtain ⟨hvalue, hrest⟩ := Prod.mk.inj ((hgives () []).symm.trans (h () []))
    exact ⟨Outcome.ok.inj hvalue, (Prod.mk.inj hrest).2⟩
  have hleft := hlives {[]} (Set.mem_singleton _) fun i more hmem => by simp at hmem
  refine ⟨res, place, hfinds, fun other => ⟨fun h => ?_, ?_⟩, ?_⟩
  · obtain ⟨_, hother⟩ := h.walk
    obtain ⟨hok, hplace⟩ := Prod.mk.inj (hsame hother).1
    exact ⟨hok, hplace.symm⟩
  · rintro ⟨rfl, rfl⟩
    exact ⟨⟨events, hgives⟩, hfinds.result⟩
  · rintro path rfl
    constructor
    · rintro ⟨_, after, hother, hafter, hmem⟩
      obtain ⟨-, rfl⟩ := hsame hother
      rwa [hleft.unique hafter]
    · intro hmem
      rw [hfinds.ok path rfl] at hgives
      exact ⟨events, _, hgives, hleft, hmem⟩

theorem mem_leftDies_iff (path : List Nat) :
    path ∈ leftDies [] (some path) {[]} ↔ path.getLast? ≠ some 0 := by
  rcases List.eq_nil_or_concat path with rfl | ⟨outer, i, rfl⟩
  · exact iff_of_true (Set.mem_singleton _) (by simp)
  · simp only [leftDies, givenUp, List.concat_eq_append, List.getLast?_concat, Option.all_some,
      List.nil_append]
    by_cases hi : i = 0
    · simp [hi]
    · simp [hi]

theorem EndPlace.unique {other : List Nat} {below : Die}
    (h : EndPlace undef name pc root path die) (hother : EndPlace undef name pc root other below)
    (hleaf : ¬Enters pc die) (hleaf' : ¬Enters pc below) : path = other ∧ die = below := by
  have hpath : path = other := by
    rcases h.reaches.before_or_before hother.reaches hleaf hleaf' with heq | hbefore | hbefore
    · exact heq
    · exact absurd hbefore (hother.first _ _ h.toStopPlace)
    · exact absurd hbefore (h.first _ _ hother.toStopPlace)
  subst hpath
  exact ⟨rfl, Option.some_inj.mp (h.reaches.nodeAt_eq.symm.trans hother.reaches.nodeAt_eq)⟩

-- Where nothing is found, no DIE with the name is where the walk ends.
theorem FindsAt.not_named
    {res : DwRes Unit} {below : Die}
    (h : FindsAt undef name pc die (getLocalVarFromName undef (some name) pc die) res none)
    (hplace : EndPlace undef name pc die path below) : ¬Named undef name below := by
  intro hnamed
  obtain ⟨result, hresult, hends, -⟩ := getLocalVarFromName_walk undef name pc die
  obtain rfl : result = (res, none) := Option.some.inj (hresult.symm.trans h.result)
  cases hends with
  | failed hother hunread =>
      obtain ⟨-, rfl⟩ := hplace.unique hother hnamed.not_enters hunread.not_enters
      exact hunread.not_named hnamed
  | nothing _ hnone => exact hnone _ _ hplace.toStopPlace

-- The walk has freed what it gives exactly if that is the first child of its block.
theorem GivesPlace.live_iff (h : GivesPlace undef name pc root (some path)) :
    GivesLive undef name pc root path ↔ path.getLast? ≠ some 0 := by
  obtain ⟨res, place, -, hgives, hlive⟩ := givesPlace_unique undef name pc root
  rw [hlive path ((hgives _).mp h).2.symm]
  exact mem_leftDies_iff path

end Given

section Handler

variable {locInfo : LocInfo}

end Handler

section Whole

variable {t : Debugger κ} {locInfo : LocInfo} {place : Option (List Nat)} {res : DwRes Unit}

end Whole

end VDebugger
