import VDebugger.Cmdline
import VDebugger.Machine.Action
import Mathlib.Logic.Function.Basic

namespace VDebugger

open Machine

-- The two buffers of the loop in `run_debugger`: `buffer`, and `line`, whose size is 0.
inductive BufferId where
  | bounded
  | terminated
  deriving DecidableEq, Repr

-- `none` for a null pointer.
structure RawBuffer where
  data : Option (Nat → Char)
  size : Nat
  rseek : Nat
  wseek : Nat

structure BufferAccess where
  buffer : BufferId
  write : Bool
  index : Nat
  deriving DecidableEq, Repr

-- The buffers, and every access to their characters so far.
structure RawBuffers where
  get : BufferId → RawBuffer
  log : List BufferAccess

abbrev RawM : Type → Type := Action RawBuffers

namespace RawBuffers

def logged (s : RawBuffers) (access : BufferAccess) : RawBuffers :=
  { s with log := s.log ++ [access] }

def update (s : RawBuffers) (id : BufferId) (f : RawBuffer → RawBuffer) : RawBuffers :=
  { s with get := Function.update s.get id (f (s.get id)) }

end RawBuffers

namespace Raw

def newBuffer (malloc : Nat → Char) (size : Nat) : RawBuffer where
  data := if size > 0 then some fun i => if i = size then nul else malloc i else none
  size
  rseek := 0
  wseek := 0

-- What `linenoise` returns is put into a buffer of size 0.
def lineBuffer (behind : Nat → Char) (line : CString) : RawBuffer :=
  { newBuffer behind 0 with data := some fun i => (line ++ [nul])[i]?.getD (behind i) }

-- There is no coming back from a null pointer.
def load (id : BufferId) (index : Nat) : RawM Char := do
  let s ← Action.fetch
  match (s.get id).data with
  | none => Action.block
  | some data =>
      Action.change fun s => s.logged { buffer := id, write := false, index }
      pure (data index)

def store (id : BufferId) (index : Nat) (c : Char) : RawM Unit := do
  let s ← Action.fetch
  match (s.get id).data with
  | none => Action.block
  | some data =>
      Action.change fun s =>
        (s.update id fun buffer =>
          { buffer with data := some (Function.update data index c) }).logged
            { buffer := id, write := true, index }

def peekBuffer (id : BufferId) : RawM Char := do
  let s ← Action.fetch
  if (s.get id).rseek ≥ (s.get id).size then pure nul else load id (s.get id).rseek

def peekBufferBack (id : BufferId) : RawM Char := do
  let s ← Action.fetch
  if (s.get id).size = 0 ∨ (s.get id).wseek = 0 then pure nul
  else load id ((s.get id).wseek - 1)

-- `buffer->data[buffer->rseek++]`
def advance (id : BufferId) : RawM Char := do
  let s ← Action.fetch
  let c ← load id (s.get id).rseek
  Action.change fun s => s.update id fun buffer => { buffer with rseek := buffer.rseek + 1 }
  pure c

def readFromBuffer (id : BufferId) : RawM Char := do
  let s ← Action.fetch
  if (s.get id).size = 0 then
    let c ← load id (s.get id).rseek
    if c ≠ nul then advance id else pure nul
  else if (s.get id).rseek < (s.get id).size then advance id
  else pure nul

def writeToBuffer (id : BufferId) (c : Char) : RawM Int := do
  let s ← Action.fetch
  if (s.get id).wseek ≥ (s.get id).size then pure 1
  else do
    store id (s.get id).wseek c
    Action.change fun s => s.update id fun buffer => { buffer with wseek := buffer.wseek + 1 }
    pure 0

def popBuffer (id : BufferId) : RawM Char := do
  let s ← Action.fetch
  if (s.get id).wseek = 0 then pure nul
  else do
    let c ← load id (s.get id).wseek
    Action.change fun s => s.update id fun buffer => { buffer with wseek := buffer.wseek - 1 }
    pure c

def resetSeek (id : BufferId) : RawM Unit :=
  Action.change fun s => s.update id fun buffer => { buffer with rseek := 0, wseek := 0 }

-- The loops are observed for so many passes.
def skipCharacters (id : BufferId) : Nat → RawM Unit
  | 0 => Action.block
  | passes + 1 => do
      let c ← readFromBuffer id
      if c ≠ nul then skipCharacters id passes else pure ()

-- The pointer returned, as an index.
def nextToken (passes : Nat) (id : BufferId) : RawM (Option Nat) := do
  let s ← Action.fetch
  let c ← load id (s.get id).rseek
  if c = nul then pure none
  else if (s.get id).size ≠ 0 ∧ (s.get id).rseek ≥ (s.get id).wseek then pure none
  else do
    let next := (s.get id).rseek
    skipCharacters id passes
    let first ← load id next
    if first = nul then pure none else pure (some next)

-- `if (write_to_buffer(buffer, c)) { return -1; }`
def writeOrReturn (buffer : BufferId) (c : Char) (rest : RawM Int) : RawM Int := do
  let full ← writeToBuffer buffer c
  if full ≠ 0 then pure (-1) else rest

def parseLoop (buffer line : BufferId) : Nat → RawM Int
  | 0 => Action.block
  | passes + 1 => do
      let next ← readFromBuffer line
      if next = nul then do
        let last ← peekBufferBack buffer
        if last ≠ nul then do
          let _ ← writeToBuffer buffer nul
          pure 0
        else pure 0
      else if next = ';' then do
        let _ ← writeToBuffer buffer nul
        pure 1
      else if !isWhitespace next then
        writeOrReturn buffer next (parseLoop buffer line passes)
      else do
        let last ← peekBufferBack buffer
        if last ≠ nul then writeOrReturn buffer nul (parseLoop buffer line passes)
        else parseLoop buffer line passes

-- `strcpy(buffer->data, "exit")`
def copyExit (buffer : BufferId) : RawM Unit := do
  store buffer 0 'e'
  store buffer 1 'x'
  store buffer 2 'i'
  store buffer 3 't'
  store buffer 4 nul

def parseInput (passes : Nat) (buffer line : BufferId) : RawM Int := do
  let s ← Action.fetch
  if (s.get line).data.isNone then do
    copyExit buffer
    pure 1
  else parseLoop buffer line passes

end Raw

-- A call of one of the functions on the buffers.
inductive BufferCall where
  | write (id : BufferId) (c : Char)
  | read (id : BufferId)
  | peek (id : BufferId)
  | peekBack (id : BufferId)
  | pop (id : BufferId)
  | nextToken (id : BufferId)
  | resetSeek (id : BufferId)
  | parseInput (buffer line : BufferId)

def BufferCall.make (passes : Nat) : BufferCall → RawM Unit
  | .write id c => do let _ ← Raw.writeToBuffer id c
  | .read id => do let _ ← Raw.readFromBuffer id
  | .peek id => do let _ ← Raw.peekBuffer id
  | .peekBack id => do let _ ← Raw.peekBufferBack id
  | .pop id => do let _ ← Raw.popBuffer id
  | .nextToken id => do let _ ← Raw.nextToken passes id
  | .resetSeek id => Raw.resetSeek id
  | .parseInput buffer line => do let _ ← Raw.parseInput passes buffer line

def makeBufferCalls (passes : Nat) : List BufferCall → RawM Unit
  | [] => pure ()
  | call :: rest => do
      call.make passes
      makeBufferCalls passes rest

-- How long the buffer is, and the line.
structure Layout where
  size : Nat
  length : Nat

namespace Layout

-- The index of the null character that is never written over.
def limit (layout : Layout) : BufferId → Nat
  | .bounded => layout.size
  | .terminated => layout.length

def capacity (layout : Layout) : BufferId → Nat
  | .bounded => layout.size
  | .terminated => 0

theorem capacity_le_limit (layout : Layout) (id : BufferId) :
    layout.capacity id ≤ layout.limit id := by
  cases id with
  | bounded => exact Nat.le_refl _
  | terminated => exact Nat.zero_le _

end Layout

structure RawBuffer.InBounds (limit capacity : Nat) (buffer : RawBuffer) : Prop where
  ended : ∃ data, buffer.data = some data ∧ data limit = nul
  size_eq : buffer.size = capacity
  rseek_le : buffer.rseek ≤ limit
  wseek_le : buffer.wseek ≤ capacity

def BufferAccess.Allowed (layout : Layout) (access : BufferAccess) : Prop :=
  if access.write then access.index < layout.capacity access.buffer
  else access.index ≤ layout.limit access.buffer

structure RawBuffers.InBounds (layout : Layout) (s : RawBuffers) : Prop where
  get : ∀ id, (s.get id).InBounds (layout.limit id) (layout.capacity id)
  log : ∀ access ∈ s.log, access.Allowed layout

-- In bounds, and the buffer that is read from is at its end in fewer than so many passes.
structure RawBuffers.Ready (layout : Layout) (id : BufferId) (passes : Nat) (s : RawBuffers) :
    Prop where
  bounds : s.InBounds layout
  left : layout.limit id < (s.get id).rseek + passes

section Bounds

variable {layout : Layout} {s t : RawBuffers} {id source : BufferId} {passes : Nat}

theorem RawBuffers.get_update_self (s : RawBuffers) (id : BufferId) (f : RawBuffer → RawBuffer) :
    (s.update id f).get id = f (s.get id) := Function.update_self ..

theorem RawBuffers.get_update_of_ne (s : RawBuffers) {id other : BufferId} (h : other ≠ id)
    (f : RawBuffer → RawBuffer) : (s.update id f).get other = s.get other :=
  Function.update_of_ne h ..

@[simp] theorem RawBuffers.get_logged (s : RawBuffers) (access : BufferAccess) :
    (s.logged access).get = s.get := rfl

theorem RawBuffers.InBounds.ready (h : s.InBounds layout) (id : BufferId) :
    s.Ready layout id (layout.limit id + 1) := ⟨h, by omega⟩

theorem RawBuffers.Ready.passes_pos (h : s.Ready layout id passes) : passes ≠ 0 := by
  have hle := (h.bounds.get id).rseek_le
  have hlt := h.left
  omega

namespace RawBuffers.InBounds

theorem logged {access : BufferAccess} (h : s.InBounds layout) (hallowed : access.Allowed layout) :
    (s.logged access).InBounds layout where
  get := h.get
  log other hmem := by
    rcases List.mem_append.mp hmem with hbefore | hlast
    · exact h.log other hbefore
    · rw [List.mem_singleton.mp hlast]
      exact hallowed

theorem update {f : RawBuffer → RawBuffer} (h : s.InBounds layout)
    (hf : (f (s.get id)).InBounds (layout.limit id) (layout.capacity id)) :
    (s.update id f).InBounds layout where
  get other := by
    by_cases hid : other = id
    · subst hid
      rw [RawBuffers.get_update_self]
      exact hf
    · rw [RawBuffers.get_update_of_ne s hid]
      exact h.get other
  log := h.log

end RawBuffers.InBounds

-- In bounds still, and the seeks that reading goes by are as they were.
structure StaysInBounds (layout : Layout) (s t : RawBuffers) : Prop where
  bounds : t.InBounds layout
  rseek : ∀ id, (t.get id).rseek = (s.get id).rseek

namespace StaysInBounds

theorem refl (h : s.InBounds layout) : StaysInBounds layout s s := ⟨h, fun _ => rfl⟩

theorem trans {u : RawBuffers} (h : StaysInBounds layout s t) (h' : StaysInBounds layout t u) :
    StaysInBounds layout s u := ⟨h'.bounds, fun id => (h'.rseek id).trans (h.rseek id)⟩

theorem ready (h : StaysInBounds layout s t) (hs : s.Ready layout id passes) :
    t.Ready layout id passes := by
  refine ⟨h.bounds, ?_⟩
  rw [h.rseek]
  exact hs.left

theorem update {f : RawBuffer → RawBuffer} (h : s.InBounds layout)
    (hf : (f (s.get id)).InBounds (layout.limit id) (layout.capacity id))
    (hseek : ∀ buffer, (f buffer).rseek = buffer.rseek) :
    StaysInBounds layout s (s.update id f) where
  bounds := h.update hf
  rseek other := by
    by_cases hid : other = id
    · subst hid
      rw [RawBuffers.get_update_self]
      exact hseek _
    · rw [RawBuffers.get_update_of_ne s hid]

end StaysInBounds

namespace Raw

section Values

variable {data : Nat → Char}

theorem load_apply (hdata : (s.get id).data = some data) (index : Nat) :
    load id index s = (.ok (data index), s.logged ⟨id, false, index⟩) := by
  simp only [load, Action.bind_apply, Action.fetch_apply, hdata, Action.change_apply,
    Action.pure_apply]

theorem store_apply (hdata : (s.get id).data = some data) (index : Nat) (c : Char) :
    store id index c s = (.ok (),
      (s.update id fun buffer =>
        { buffer with data := some (Function.update data index c) }).logged ⟨id, true, index⟩) := by
  simp only [store, Action.bind_apply, Action.fetch_apply, hdata, Action.change_apply]

theorem advance_apply (hdata : (s.get id).data = some data) :
    advance id s = (.ok (data (s.get id).rseek),
      (s.logged ⟨id, false, (s.get id).rseek⟩).update id fun buffer =>
        { buffer with rseek := buffer.rseek + 1 }) := by
  unfold advance
  rw [Action.bind_of_ok (Action.fetch_apply s), Action.bind_of_ok (load_apply hdata _),
    Action.bind_of_ok (Action.change_apply _ _)]
  rfl

end Values

theorem load_eq (hs : s.InBounds layout) {index : Nat} (hindex : index ≤ layout.limit id) :
    ∃ data t, (s.get id).data = some data ∧ data (layout.limit id) = nul ∧
      load id index s = (.ok (data index), t) ∧ t.get = s.get ∧ StaysInBounds layout s t := by
  obtain ⟨data, hdata, hended⟩ := (hs.get id).ended
  exact ⟨data, _, hdata, hended, load_apply hdata index, rfl, hs.logged hindex, fun _ => rfl⟩

theorem store_eq (hs : s.InBounds layout) {index : Nat} (hindex : index < layout.capacity id)
    (c : Char) :
    ∃ t, store id index c s = (.ok (), t) ∧ (t.get id).wseek = (s.get id).wseek ∧
      StaysInBounds layout s t := by
  obtain ⟨data, hdata, hended⟩ := (hs.get id).ended
  have hbuffer := hs.get id
  have hlt := hindex.trans_le (layout.capacity_le_limit id)
  have hkept : (Function.update data index c) (layout.limit id) = nul := by
    rw [Function.update_of_ne (Nat.ne_of_gt hlt), hended]
  have hstays : StaysInBounds layout s
      (s.update id fun buffer => { buffer with data := some (Function.update data index c) }) :=
    .update hs ⟨⟨_, rfl, hkept⟩, hbuffer.size_eq, hbuffer.rseek_le, hbuffer.wseek_le⟩ fun _ => rfl
  have hallowed : BufferAccess.Allowed layout ⟨id, true, index⟩ := hindex
  refine ⟨_, store_apply hdata index c, ?_, hstays.bounds.logged hallowed, hstays.rseek⟩
  rw [RawBuffers.get_logged, RawBuffers.get_update_self]

-- The characters from `rseek` up to the null character are there to be read.
theorem advance_ready (hs : s.Ready layout id (passes + 1))
    (hlt : (s.get id).rseek < layout.limit id) :
    ∃ c t, advance id s = (.ok c, t) ∧ t.Ready layout id passes := by
  obtain ⟨data, hdata, _⟩ := (hs.bounds.get id).ended
  have hbounds := hs.bounds.logged (show BufferAccess.Allowed layout ⟨id, false, _⟩ from hlt.le)
  have hbuffer := hbounds.get id
  have hleft := hs.left
  refine ⟨_, _, advance_apply hdata, hbounds.update ?_, ?_⟩
  · exact ⟨hbuffer.ended, hbuffer.size_eq, hlt, hbuffer.wseek_le⟩
  · rw [RawBuffers.get_update_self]
    simp only [RawBuffers.get_logged]
    omega

theorem readFromBuffer_ready :
    (readFromBuffer id).Completes (fun s => s.Ready layout id (passes + 1))
      fun c t => t.InBounds layout ∧ (c ≠ nul → t.Ready layout id passes) := by
  intro s hs
  have hbuffer := hs.bounds.get id
  have hcapacity := layout.capacity_le_limit id
  unfold readFromBuffer
  rw [Action.bind_of_ok (Action.fetch_apply s)]
  by_cases hsize : (s.get id).size = 0
  · rw [if_pos hsize]
    obtain ⟨data, t, hdata, hended, hload, hget, hstays⟩ := load_eq hs.bounds hbuffer.rseek_le
    rw [Action.bind_of_ok hload]
    by_cases hnul : data (s.get id).rseek = nul
    · rw [if_neg (not_not_intro hnul)]
      exact ⟨nul, t, rfl, hstays.bounds, fun h => absurd rfl h⟩
    · rw [if_pos hnul]
      -- The null character stands at the limit.
      have hne : (s.get id).rseek ≠ layout.limit id := fun heq => hnul (by rw [heq, hended])
      have hlt : (t.get id).rseek < layout.limit id := by
        rw [hget]
        exact Nat.lt_of_le_of_ne hbuffer.rseek_le hne
      obtain ⟨c, u, hadvance, hu⟩ := advance_ready (hstays.ready hs) hlt
      exact ⟨c, u, hadvance, hu.bounds, fun _ => hu⟩
  · rw [if_neg hsize]
    by_cases hlt : (s.get id).rseek < (s.get id).size
    · rw [if_pos hlt]
      rw [hbuffer.size_eq] at hlt
      obtain ⟨c, u, hadvance, hu⟩ := advance_ready hs (hlt.trans_le hcapacity)
      exact ⟨c, u, hadvance, hu.bounds, fun _ => hu⟩
    · rw [if_neg hlt]
      exact ⟨nul, s, rfl, hs.bounds, fun h => absurd rfl h⟩

theorem peekBufferBack_stays (hs : s.InBounds layout) (id : BufferId) :
    ∃ c t, peekBufferBack id s = (.ok c, t) ∧ StaysInBounds layout s t := by
  unfold peekBufferBack
  rw [Action.bind_of_ok (Action.fetch_apply s)]
  by_cases hempty : (s.get id).size = 0 ∨ (s.get id).wseek = 0
  · rw [if_pos hempty]
    exact ⟨nul, s, rfl, .refl hs⟩
  · rw [if_neg hempty]
    have hwseek := (hs.get id).wseek_le
    have hcapacity := layout.capacity_le_limit id
    obtain ⟨data, t, _, _, hload, _, hstays⟩ :=
      load_eq hs (show (s.get id).wseek - 1 ≤ layout.limit id by omega)
    exact ⟨_, t, hload, hstays⟩

theorem peekBuffer_stays (hs : s.InBounds layout) (id : BufferId) :
    ∃ c t, peekBuffer id s = (.ok c, t) ∧ StaysInBounds layout s t := by
  unfold peekBuffer
  rw [Action.bind_of_ok (Action.fetch_apply s)]
  by_cases hend : (s.get id).rseek ≥ (s.get id).size
  · rw [if_pos hend]
    exact ⟨nul, s, rfl, .refl hs⟩
  · rw [if_neg hend]
    obtain ⟨data, t, _, _, hload, _, hstays⟩ := load_eq hs (hs.get id).rseek_le
    exact ⟨_, t, hload, hstays⟩

theorem writeToBuffer_stays (hs : s.InBounds layout) (id : BufferId) (c : Char) :
    ∃ res t, writeToBuffer id c s = (.ok res, t) ∧ StaysInBounds layout s t := by
  unfold writeToBuffer
  rw [Action.bind_of_ok (Action.fetch_apply s)]
  by_cases hfull : (s.get id).wseek ≥ (s.get id).size
  · rw [if_pos hfull]
    exact ⟨1, s, rfl, .refl hs⟩
  · rw [if_neg hfull]
    have hsize := (hs.get id).size_eq
    obtain ⟨t, hstore, hwseek, hstays⟩ :=
      store_eq hs (show (s.get id).wseek < layout.capacity id by omega) c
    have hbuffer := hstays.bounds.get id
    rw [Action.bind_of_ok hstore, Action.bind_of_ok (Action.change_apply _ t)]
    refine ⟨0, _, rfl, hstays.trans (.update hstays.bounds ?_ fun _ => rfl)⟩
    exact ⟨hbuffer.ended, hbuffer.size_eq, hbuffer.rseek_le, by simp only; omega⟩

theorem popBuffer_stays (hs : s.InBounds layout) (id : BufferId) :
    ∃ c t, popBuffer id s = (.ok c, t) ∧ StaysInBounds layout s t := by
  unfold popBuffer
  rw [Action.bind_of_ok (Action.fetch_apply s)]
  by_cases hempty : (s.get id).wseek = 0
  · rw [if_pos hempty]
    exact ⟨nul, s, rfl, .refl hs⟩
  · rw [if_neg hempty]
    have hwseek := (hs.get id).wseek_le
    obtain ⟨data, t, _, _, hload, _, hstays⟩ :=
      load_eq hs (hwseek.trans (layout.capacity_le_limit id))
    have hbuffer := hstays.bounds.get id
    rw [Action.bind_of_ok hload, Action.bind_of_ok (Action.change_apply _ t)]
    refine ⟨_, _, rfl, hstays.trans (.update hstays.bounds ?_ fun _ => rfl)⟩
    exact ⟨hbuffer.ended, hbuffer.size_eq, hbuffer.rseek_le,
      (Nat.sub_le _ _).trans hbuffer.wseek_le⟩

section Lifted

variable {α : Type} {x : RawM α}

theorem completes_bounds
    (h : ∀ s : RawBuffers, s.InBounds layout →
      ∃ a t, x s = (.ok a, t) ∧ StaysInBounds layout s t) :
    x.Completes (fun s => s.InBounds layout) fun _ t => t.InBounds layout := by
  intro s hs
  obtain ⟨a, t, hrun, hstays⟩ := h s hs
  exact ⟨a, t, hrun, hstays.bounds⟩

theorem completes_ready
    (h : ∀ s : RawBuffers, s.InBounds layout →
      ∃ a t, x s = (.ok a, t) ∧ StaysInBounds layout s t)
    (id : BufferId) (passes : Nat) :
    x.Completes (fun s => s.Ready layout id passes) fun _ t => t.Ready layout id passes := by
  intro s hs
  obtain ⟨a, t, hrun, hstays⟩ := h s hs.bounds
  exact ⟨a, t, hrun, hstays.ready hs⟩

end Lifted

theorem skipCharacters_completes (passes : Nat) :
    (skipCharacters id passes).Completes (fun s => s.Ready layout id passes)
      fun _ t => t.InBounds layout := by
  induction passes with
  | zero =>
      intro s hs
      exact absurd rfl hs.passes_pos
  | succ passes ih =>
      apply readFromBuffer_ready.bind
      intro c
      apply Action.Completes.ite
      · intro hc
        exact ih.weaken (fun s hs => hs.2 hc) fun _ _ h => h
      · intro _
        exact .pure fun s hs => hs.1

theorem nextToken_completes (id : BufferId) (hpasses : layout.limit id < passes) :
    (nextToken passes id).Completes (fun s => s.InBounds layout) fun _ t => t.InBounds layout := by
  apply Action.Completes.fetch
  rintro s hs t rfl
  have hseek := (hs.get id).rseek_le
  obtain ⟨data, u, _, _, hload, hget, hstays⟩ := load_eq hs hseek
  rw [Action.bind_of_ok hload]
  by_cases hnul : data (t.get id).rseek = nul
  · rw [if_pos hnul]
    exact ⟨none, u, rfl, hstays.bounds⟩
  · rw [if_neg hnul]
    by_cases hend : (t.get id).size ≠ 0 ∧ (t.get id).rseek ≥ (t.get id).wseek
    · rw [if_pos hend]
      exact ⟨none, u, rfl, hstays.bounds⟩
    · rw [if_neg hend]
      have hready : t.Ready layout id passes := ⟨hs, by omega⟩
      obtain ⟨_, v, hskip, hv⟩ := skipCharacters_completes passes u (hstays.ready hready)
      obtain ⟨_, w, _, _, hfirst, _, hw⟩ := load_eq hv hseek
      rw [Action.bind_of_ok hskip, Action.bind_of_ok hfirst]
      split
      · exact ⟨none, w, rfl, hw.bounds⟩
      · exact ⟨some _, w, rfl, hw.bounds⟩

-- The null character that ends what is parsed may find the buffer full.
theorem endWrite_completes (target : BufferId) (res : Int) :
    (do
      let _ ← writeToBuffer target nul
      pure res : RawM Int).Completes (fun s => s.InBounds layout) fun _ t => t.InBounds layout :=
  (completes_bounds fun _ hs => writeToBuffer_stays hs target nul).bind fun _ => .pure fun _ h => h

theorem parseLoop_completes (target source : BufferId) (passes : Nat) :
    (parseLoop target source passes).Completes (fun s => s.Ready layout source passes)
      fun _ t => t.InBounds layout := by
  induction passes with
  | zero =>
      intro s hs
      exact absurd rfl hs.passes_pos
  | succ passes ih =>
      have hwrite (c : Char) : (writeOrReturn target c (parseLoop target source passes)).Completes
          (fun s => s.Ready layout source passes) fun _ t => t.InBounds layout := by
        apply (completes_ready (fun _ hs => writeToBuffer_stays hs target c) source passes).bind
        intro full
        exact .ite (fun _ => .pure fun _ h => h.bounds) fun _ => ih
      apply readFromBuffer_ready.bind
      intro next
      apply Action.Completes.ite
      · intro _
        refine .weaken ?_ (fun _ h => h.1) fun _ _ h => h
        apply (completes_bounds fun _ hs => peekBufferBack_stays hs target).bind
        intro last
        exact .ite (fun _ => endWrite_completes target 0) fun _ => .pure fun _ h => h
      · intro hnul
        apply Action.Completes.ite
        · intro _
          exact (endWrite_completes target 1).weaken (fun _ h => h.1) fun _ _ h => h
        · intro _
          refine .weaken ?_ (fun _ h => h.2 hnul) fun _ _ h => h
          apply Action.Completes.ite
          · intro _
            exact hwrite next
          · intro _
            apply (completes_ready (fun _ hs => peekBufferBack_stays hs target) source passes).bind
            intro last
            exact .ite (fun _ => hwrite nul) fun _ => ih

theorem parseInput_completes (target source : BufferId) (hpasses : layout.limit source < passes) :
    (parseInput passes target source).Completes (fun s => s.InBounds layout)
      fun _ t => t.InBounds layout := by
  apply Action.Completes.fetch
  rintro s hs t rfl
  obtain ⟨data, hdata, _⟩ := (hs.get source).ended
  rw [hdata, if_neg (by simp)]
  exact parseLoop_completes target source passes t ⟨hs, by omega⟩

theorem resetSeek_completes (id : BufferId) :
    (resetSeek id).Completes (fun s => s.InBounds layout) fun _ t => t.InBounds layout :=
  .change fun _ hs => hs.update
    ⟨(hs.get id).ended, (hs.get id).size_eq, Nat.zero_le _, Nat.zero_le _⟩

theorem readFromBuffer_completes (id : BufferId) :
    (readFromBuffer id).Completes (fun s => s.InBounds layout) fun _ t => t.InBounds layout :=
  readFromBuffer_ready.weaken (fun _ hs => hs.ready id) fun _ _ h => h.1

end Raw

theorem BufferCall.make_completes (call : BufferCall)
    (hpasses : ∀ id, layout.limit id < passes) :
    (call.make passes).Completes (fun s => s.InBounds layout) fun _ t => t.InBounds layout := by
  cases call with
  | write id c =>
      exact (Raw.completes_bounds fun _ hs => Raw.writeToBuffer_stays hs id c).bind
        fun _ => .pure fun _ h => h
  | read id => exact (Raw.readFromBuffer_completes id).bind fun _ => .pure fun _ h => h
  | peek id =>
      exact (Raw.completes_bounds fun _ hs => Raw.peekBuffer_stays hs id).bind
        fun _ => .pure fun _ h => h
  | peekBack id =>
      exact (Raw.completes_bounds fun _ hs => Raw.peekBufferBack_stays hs id).bind
        fun _ => .pure fun _ h => h
  | pop id =>
      exact (Raw.completes_bounds fun _ hs => Raw.popBuffer_stays hs id).bind
        fun _ => .pure fun _ h => h
  | nextToken id =>
      exact (Raw.nextToken_completes id (hpasses id)).bind fun _ => .pure fun _ h => h
  | resetSeek id => exact Raw.resetSeek_completes id
  | parseInput buffer line =>
      exact (Raw.parseInput_completes buffer line (hpasses line)).bind fun _ => .pure fun _ h => h

-- By induction on the calls, each of which keeps what is in bounds there.
theorem makeBufferCalls_completes (calls : List BufferCall)
    (hpasses : ∀ id, layout.limit id < passes) :
    (makeBufferCalls passes calls).Completes (fun s => s.InBounds layout)
      fun _ t => t.InBounds layout := by
  induction calls with
  | nil => exact .pure fun _ h => h
  | cons call rest ih => exact (call.make_completes hpasses).bind fun _ => ih

end Bounds

section Start

def startBuffers (malloc behind : Nat → Char) (size : Nat) (line : CString) : RawBuffers where
  get
    | .bounded => Raw.newBuffer malloc size
    | .terminated => Raw.lineBuffer behind line
  log := []

theorem startBuffers_inBounds (malloc behind : Nat → Char) {size : Nat} (hsize : 0 < size)
    (line : CString) :
    (startBuffers malloc behind size line).InBounds { size, length := line.length } where
  get
    | .bounded => by
        refine ⟨⟨_, if_pos hsize, if_pos rfl⟩, rfl, Nat.zero_le _, Nat.zero_le _⟩
    | .terminated => by
        refine ⟨⟨_, rfl, ?_⟩, rfl, Nat.zero_le _, Nat.zero_le _⟩
        simp [Layout.limit]
  log access hmem := by cases hmem

-- So a seek is an `int` if the size and the length are.
theorem RawBuffers.InBounds.seeks_lt {layout : Layout} {s : RawBuffers} {n : Nat}
    (h : s.InBounds layout) (hsize : layout.size < n) (hlength : layout.length < n)
    (id : BufferId) : (s.get id).rseek < n ∧ (s.get id).wseek < n := by
  have hlimit : layout.limit id < n := by
    cases id with
    | bounded => exact hsize
    | terminated => exact hlength
  have hcapacity := layout.capacity_le_limit id
  have hrseek := (h.get id).rseek_le
  have hwseek := (h.get id).wseek_le
  exact ⟨by omega, by omega⟩

-- Every call comes back, and after it both buffers are in bounds, with every access so far.
theorem buffer_calls_in_bounds (malloc behind : Nat → Char) {size : Nat} (hsize : 0 < size)
    (line : CString) (calls : List BufferCall) {passes : Nat}
    (hpasses : size + line.length < passes) :
    ∃ t, makeBufferCalls passes calls (startBuffers malloc behind size line) = (.ok (), t) ∧
      t.InBounds { size, length := line.length } ∧
      (size < 2 ^ 31 → line.length < 2 ^ 31 → ∀ id,
        (t.get id).rseek < 2 ^ 31 ∧ (t.get id).wseek < 2 ^ 31) := by
  have hlimits : ∀ id, Layout.limit { size, length := line.length } id < passes := by
    intro id
    cases id <;> simp only [Layout.limit] <;> omega
  obtain ⟨_, t, hrun, ht⟩ := makeBufferCalls_completes calls hlimits _
    (startBuffers_inBounds malloc behind hsize line)
  exact ⟨t, hrun, ht, ht.seeks_lt⟩

-- The line is too long for the buffer, which is popped and read behind that.
theorem full_buffer_in_bounds :
    ∃ t, makeBufferCalls 7 [.parseInput .bounded .terminated, .peekBack .bounded, .pop .bounded,
        .nextToken .bounded, .nextToken .bounded, .read .terminated]
        (startBuffers (fun _ => 'x') (fun _ => 'x') 2 "abc;".toList) = (.ok (), t) ∧
      t.InBounds { size := 2, length := 4 } ∧
      ∀ id, (t.get id).rseek < 2 ^ 31 ∧ (t.get id).wseek < 2 ^ 31 := by
  have hsize : 0 < 2 := by decide
  have hpasses : 2 + "abc;".toList.length < 7 := by decide
  obtain ⟨t, hrun, hbounds, hseeks⟩ := buffer_calls_in_bounds (fun _ => 'x') (fun _ => 'x') hsize
    "abc;".toList [.parseInput .bounded .terminated, .peekBack .bounded, .pop .bounded,
      .nextToken .bounded, .nextToken .bounded, .read .terminated] hpasses
  exact ⟨t, hrun, hbounds, hseeks (by decide) (by decide)⟩

end Start

end VDebugger
