import VDebugger.Cmdline.Bounds

namespace VDebugger

open Machine

variable {s : RawBuffers} {buffer : Buffer} {line : CString}

structure RawBuffer.Holds (raw : RawBuffer) (buffer : Buffer) : Prop where
  data : raw.data = some buffer.data
  size : raw.size = buffer.size
  rseek : raw.rseek = buffer.rseek
  wseek : raw.wseek = buffer.wseek

-- What is left to read up to the null character.
def ReadsAt (data : Nat → Char) : Nat → CString → Prop
  | rseek, [] => data rseek = nul
  | rseek, c :: rest => data rseek = c ∧ c ≠ nul ∧ ReadsAt data (rseek + 1) rest

structure RawBuffer.Reads (raw : RawBuffer) (line : CString) : Prop where
  size : raw.size = 0
  data : ∃ data, raw.data = some data ∧ ReadsAt data raw.rseek line

-- The buffers in memory are those of the model that has the rest of the line as a list.
structure Models (s : RawBuffers) (buffer : Buffer) (line : CString) : Prop where
  holds : (s.get .bounded).Holds buffer
  reads : (s.get .terminated).Reads line

theorem Models.logged (h : Models s buffer line) (access : BufferAccess) :
    Models (s.logged access) buffer line := ⟨h.holds, h.reads⟩

theorem Models.update {after : Buffer} {f : RawBuffer → RawBuffer} (h : Models s buffer line)
    (hf : (f (s.get .bounded)).Holds after) : Models (s.update .bounded f) after line where
  holds := by
    rw [RawBuffers.get_update_self]
    exact hf
  reads := by
    rw [RawBuffers.get_update_of_ne s (by decide)]
    exact h.reads

theorem Models.read {rest : CString} {f : RawBuffer → RawBuffer} (h : Models s buffer line)
    (hf : (f (s.get .terminated)).Reads rest) :
    Models (s.update .terminated f) buffer rest where
  holds := by
    rw [RawBuffers.get_update_of_ne s (by decide)]
    exact h.holds
  reads := by
    rw [RawBuffers.get_update_self]
    exact hf

namespace Raw

theorem load_models (h : Models s buffer line) (index : Nat) :
    ∃ t, load .bounded index s = (.ok (buffer.data index), t) ∧ Models t buffer line :=
  ⟨_, load_apply h.holds.data index, h.logged _⟩

theorem peekBufferBack_models (h : Models s buffer line) :
    ∃ t, peekBufferBack .bounded s = (.ok (VDebugger.peekBufferBack buffer), t) ∧
      Models t buffer line := by
  unfold peekBufferBack VDebugger.peekBufferBack
  rw [Action.bind_of_ok (Action.fetch_apply s), h.holds.size, h.holds.wseek]
  by_cases hempty : buffer.size = 0 ∨ buffer.wseek = 0
  · rw [if_pos hempty, if_pos hempty]
    exact ⟨s, rfl, h⟩
  · rw [if_neg hempty, if_neg hempty]
    exact load_models h _

-- What the function returns.
def written (after : Option Buffer) : Int := if after.isSome then 0 else 1

theorem writeToBuffer_models (h : Models s buffer line) (c : Char) :
    ∃ t, writeToBuffer .bounded c s = (.ok (written (VDebugger.writeToBuffer buffer c)), t) ∧
      Models t ((VDebugger.writeToBuffer buffer c).getD buffer) line := by
  unfold writeToBuffer VDebugger.writeToBuffer
  rw [Action.bind_of_ok (Action.fetch_apply s), h.holds.size, h.holds.wseek]
  by_cases hroom : buffer.wseek < buffer.size
  · rw [if_neg (Nat.not_le.mpr hroom), dif_pos hroom,
      Action.bind_of_ok (store_apply h.holds.data _ c), Action.bind_of_ok (Action.change_apply _ _)]
    refine ⟨_, rfl, ?_, ?_⟩
    · rw [RawBuffers.get_update_self, RawBuffers.get_logged, RawBuffers.get_update_self]
      refine ⟨?_, h.holds.size, h.holds.rseek, congrArg (· + 1) h.holds.wseek⟩
      simp only [Option.getD_some]
      congr 1
      funext i
      exact Function.update_apply ..
    · rw [RawBuffers.get_update_of_ne _ (by decide), RawBuffers.get_logged,
        RawBuffers.get_update_of_ne _ (by decide)]
      exact h.reads
  · rw [if_pos (Nat.not_lt.mp hroom), dif_neg hroom]
    exact ⟨s, rfl, h⟩

theorem readFromBuffer_end (h : Models s buffer []) :
    ∃ t, readFromBuffer .terminated s = (.ok nul, t) ∧ Models t buffer [] := by
  obtain ⟨data, hdata, hnul⟩ := h.reads.data
  unfold readFromBuffer
  rw [Action.bind_of_ok (Action.fetch_apply s), if_pos h.reads.size,
    Action.bind_of_ok (load_apply hdata _), hnul]
  exact ⟨_, rfl, h.logged _⟩

theorem advance_next {c : Char} {rest : CString} (h : Models s buffer (c :: rest)) :
    ∃ t, advance .terminated s = (.ok c, t) ∧ Models t buffer rest := by
  obtain ⟨data, hdata, hat, _, hrest⟩ := h.reads.data
  rw [advance_apply hdata, hat]
  exact ⟨_, rfl, (h.logged _).read ⟨h.reads.size, data, hdata, hrest⟩⟩

theorem readFromBuffer_next {c : Char} {rest : CString} (h : Models s buffer (c :: rest)) :
    ∃ t, readFromBuffer .terminated s = (.ok c, t) ∧ c ≠ nul ∧ Models t buffer rest := by
  obtain ⟨data, hdata, hat, hne, _⟩ := h.reads.data
  obtain ⟨t, hadvance, ht⟩ := advance_next (h.logged ⟨.terminated, false, (s.get .terminated).rseek⟩)
  unfold readFromBuffer
  rw [Action.bind_of_ok (Action.fetch_apply s), if_pos h.reads.size,
    Action.bind_of_ok (load_apply hdata _), hat, if_pos hne]
  exact ⟨t, hadvance, hne, ht⟩

theorem readFromBuffer_bounded (h : Models s buffer line) :
    ∃ t, readFromBuffer .bounded s = (.ok (VDebugger.readFromBuffer buffer).1, t) ∧
      Models t (VDebugger.readFromBuffer buffer).2 line := by
  have hadvance : ∀ t, Models t buffer line → ∃ u,
      advance .bounded t = (.ok (buffer.data buffer.rseek), u) ∧
        Models u { buffer with rseek := buffer.rseek + 1 } line := by
    intro t ht
    rw [advance_apply ht.holds.data, ht.holds.rseek]
    refine ⟨_, rfl, (ht.logged _).update ?_⟩
    exact ⟨ht.holds.data, ht.holds.size, congrArg (· + 1) ht.holds.rseek, ht.holds.wseek⟩
  unfold readFromBuffer VDebugger.readFromBuffer
  rw [Action.bind_of_ok (Action.fetch_apply s), h.holds.size, h.holds.rseek]
  by_cases hsize : buffer.size = 0
  · rw [if_pos hsize, if_pos hsize, Action.bind_of_ok (load_apply h.holds.data _)]
    by_cases hnul : buffer.data buffer.rseek ≠ nul
    · rw [if_pos hnul, if_pos hnul]
      exact hadvance _ (h.logged _)
    · rw [if_neg hnul, if_neg hnul]
      exact ⟨_, rfl, h.logged _⟩
  · rw [if_neg hsize, if_neg hsize]
    by_cases hlt : buffer.rseek < buffer.size
    · rw [if_pos hlt, if_pos hlt]
      exact hadvance s h
    · rw [if_neg hlt, if_neg hlt]
      exact ⟨s, rfl, h⟩

section Write

variable {c : Char} {rest : RawM Int}

theorem writeOrReturn_full (h : Models s buffer line)
    (hfull : VDebugger.writeToBuffer buffer c = none) :
    ∃ t, writeOrReturn .bounded c rest s = (.ok (-1), t) ∧ Models t buffer line := by
  obtain ⟨t, hwrite, ht⟩ := writeToBuffer_models h c
  rw [hfull] at hwrite ht
  refine ⟨t, ?_, ht⟩
  unfold writeOrReturn
  rw [Action.bind_of_ok hwrite]
  rfl

theorem writeOrReturn_room (h : Models s buffer line) {after : Buffer}
    (hroom : VDebugger.writeToBuffer buffer c = some after) :
    ∃ t, writeOrReturn .bounded c rest s = rest t ∧ Models t after line := by
  obtain ⟨t, hwrite, ht⟩ := writeToBuffer_models h c
  rw [hroom] at hwrite ht
  refine ⟨t, ?_, ht⟩
  unfold writeOrReturn
  rw [Action.bind_of_ok hwrite]
  rfl

end Write

theorem parseLoop_models {passes : Nat} (hpasses : line.length < passes)
    (h : Models s buffer line) :
    ∃ t, parseLoop .bounded .terminated passes s = (.ok (VDebugger.parseInput buffer line).1, t) ∧
      Models t (VDebugger.parseInput buffer line).2.1 (VDebugger.parseInput buffer line).2.2 := by
  induction line generalizing s buffer passes with
  | nil =>
      obtain ⟨passes, rfl⟩ : ∃ n, passes = n + 1 := ⟨passes - 1, by omega⟩
      obtain ⟨t, hread, ht⟩ := readFromBuffer_end h
      obtain ⟨u, hpeek, hu⟩ := peekBufferBack_models ht
      unfold parseLoop VDebugger.parseInput
      rw [Action.bind_of_ok hread, if_pos rfl, Action.bind_of_ok hpeek]
      by_cases hback : VDebugger.peekBufferBack buffer ≠ nul
      · obtain ⟨v, hwrite, hv⟩ := writeToBuffer_models hu nul
        rw [if_pos hback, if_pos hback, Action.bind_of_ok hwrite]
        exact ⟨v, rfl, hv⟩
      · rw [if_neg hback, if_neg hback]
        exact ⟨u, rfl, hu⟩
  | cons next line ih =>
      rw [List.length_cons] at hpasses
      obtain ⟨passes, rfl⟩ : ∃ n, passes = n + 1 := ⟨passes - 1, by omega⟩
      have hleft : line.length < passes := by omega
      obtain ⟨t, hread, hne, ht⟩ := readFromBuffer_next h
      unfold parseLoop VDebugger.parseInput
      rw [Action.bind_of_ok hread, if_neg hne]
      by_cases hend : next = ';'
      · obtain ⟨u, hwrite, hu⟩ := writeToBuffer_models ht nul
        rw [if_pos hend, if_pos hend, Action.bind_of_ok hwrite]
        exact ⟨u, rfl, hu⟩
      · rw [if_neg hend, if_neg hend]
        by_cases hplain : (!isWhitespace next) = true
        · rw [if_pos hplain, if_pos hplain]
          cases hwrite : VDebugger.writeToBuffer buffer next with
          | none => exact writeOrReturn_full ht hwrite
          | some after =>
              obtain ⟨u, hrun, hu⟩ := writeOrReturn_room ht hwrite
              rw [hrun]
              exact ih hleft hu
        · obtain ⟨u, hpeek, hu⟩ := peekBufferBack_models ht
          rw [if_neg hplain, if_neg hplain, Action.bind_of_ok hpeek]
          by_cases hback : VDebugger.peekBufferBack buffer ≠ nul
          · rw [if_pos hback, if_pos hback]
            cases hwrite : VDebugger.writeToBuffer buffer nul with
            | none => exact writeOrReturn_full hu hwrite
            | some after =>
                obtain ⟨v, hrun, hv⟩ := writeOrReturn_room hu hwrite
                rw [hrun]
                exact ih hleft hv
          · rw [if_neg hback, if_neg hback]
            exact ih hleft hu

theorem parseInput_models {passes : Nat} (hpasses : line.length < passes)
    (h : Models s buffer line) :
    ∃ t, parseInput passes .bounded .terminated s = (.ok (VDebugger.parseInput buffer line).1, t) ∧
      Models t (VDebugger.parseInput buffer line).2.1 (VDebugger.parseInput buffer line).2.2 := by
  obtain ⟨data, hdata, _⟩ := h.reads.data
  unfold parseInput
  rw [Action.bind_of_ok (Action.fetch_apply s), hdata]
  exact parseLoop_models hpasses h

theorem readFromBuffer_moves (buffer : Buffer) (h : (VDebugger.readFromBuffer buffer).1 ≠ nul) :
    (VDebugger.readFromBuffer buffer).2 = { buffer with rseek := buffer.rseek + 1 } := by
  unfold VDebugger.readFromBuffer at h ⊢
  split at h <;> split at h
  · next hsize hnul => rw [if_pos hsize, if_pos hnul]
  · exact absurd rfl h
  · next hsize hlt => rw [if_neg hsize, if_pos hlt]
  · exact absurd rfl h

theorem skipCharacters_data (passes : Nat) (buffer : Buffer) :
    (VDebugger.skipCharacters passes buffer).2.data = buffer.data := by
  induction passes generalizing buffer with
  | zero => rfl
  | succ passes ih =>
      have hdata : (VDebugger.readFromBuffer buffer).2.data = buffer.data := by
        unfold VDebugger.readFromBuffer
        split <;> split <;> rfl
      unfold VDebugger.skipCharacters
      rcases hread : VDebugger.readFromBuffer buffer with ⟨c, after⟩
      rw [hread] at hdata
      by_cases hnul : c = nul
      · simp only [hnul, if_true]
        exact hdata
      · simp only [if_neg hnul]
        exact (ih after).trans hdata

-- The passes are enough to come to the null character at the end.
theorem skipCharacters_models (passes : Nat) (hsize : buffer.size ≠ 0)
    (hpasses : buffer.size < buffer.rseek + passes) (hseek : buffer.rseek ≤ buffer.size)
    (h : Models s buffer line) :
    ∃ t, skipCharacters .bounded passes s = (.ok (), t) ∧
      Models t (VDebugger.skipCharacters passes buffer).2 line := by
  induction passes generalizing s buffer with
  | zero => omega
  | succ passes ih =>
      obtain ⟨t, hread, ht⟩ := readFromBuffer_bounded h
      have hmoves := readFromBuffer_moves buffer
      have hend : (VDebugger.readFromBuffer buffer).1 ≠ nul → buffer.rseek < buffer.size := by
        intro hne
        by_contra hge
        unfold VDebugger.readFromBuffer at hne
        rw [if_neg hsize, if_neg hge] at hne
        exact hne rfl
      unfold skipCharacters VDebugger.skipCharacters
      rw [Action.bind_of_ok hread]
      rcases hafter : VDebugger.readFromBuffer buffer with ⟨c, after⟩
      rw [hafter] at hmoves hend ht
      by_cases hnul : c = nul
      · simp only [hnul, ne_eq, not_true_eq_false, if_false, if_true]
        exact ⟨t, rfl, ht⟩
      · obtain rfl := hmoves hnul
        simp only [ne_eq, hnul, not_false_eq_true, if_true, if_false]
        have hlt := hend hnul
        exact ih hsize (by simp only; omega) hlt ht

-- The pointer returned is to where the token starts.
theorem nextToken_models (hsize : buffer.size ≠ 0) (hseek : buffer.rseek ≤ buffer.size)
    (h : Models s buffer line) :
    ∃ t, nextToken (buffer.size - buffer.rseek + 1) .bounded s
        = (.ok ((VDebugger.nextToken buffer).1.map fun _ => buffer.rseek), t) ∧
      Models t (VDebugger.nextToken buffer).2 line := by
  obtain ⟨t, hload, ht⟩ := load_models h buffer.rseek
  unfold nextToken VDebugger.nextToken
  rw [Action.bind_of_ok (Action.fetch_apply s), h.holds.rseek, h.holds.size, h.holds.wseek,
    Action.bind_of_ok hload]
  by_cases hnul : buffer.data buffer.rseek = nul
  · rw [if_pos hnul, if_pos hnul]
    exact ⟨t, rfl, ht⟩
  · rw [if_neg hnul, if_neg hnul]
    by_cases hend : buffer.size ≠ 0 ∧ buffer.rseek ≥ buffer.wseek
    · rw [if_pos hend, if_pos hend]
      exact ⟨t, rfl, ht⟩
    · obtain ⟨u, hskip, hu⟩ := skipCharacters_models (buffer.size - buffer.rseek + 1) hsize
        (by omega) hseek ht
      obtain ⟨v, hfirst, hv⟩ := load_models hu buffer.rseek
      rw [skipCharacters_data] at hfirst
      rw [if_neg hend, if_neg hend, Action.bind_of_ok hskip, Action.bind_of_ok hfirst,
        if_neg hnul]
      exact ⟨v, rfl, hv⟩

end Raw

theorem readsAt_append (behind : Nat → Char) (before line : CString) (hnul : nul ∉ line) :
    ReadsAt (fun i => (before ++ line ++ [nul])[i]?.getD (behind i)) before.length line := by
  induction line generalizing before with
  | nil => simp [ReadsAt]
  | cons c rest ih =>
      have hrest := ih (before ++ [c]) fun hmem => hnul (List.mem_cons_of_mem _ hmem)
      rw [List.append_assoc before, List.singleton_append, List.length_append] at hrest
      refine ⟨?_, ?_, hrest⟩
      · simp
      · exact fun heq => hnul (by rw [heq]; exact List.mem_cons_self)

theorem startBuffers_models (malloc behind : Nat → Char) {size : Nat} (hsize : 0 < size)
    {line : CString} (hnul : nul ∉ line) :
    Models (startBuffers malloc behind size line) (newBuffer malloc size) line where
  holds := ⟨if_pos hsize, rfl, rfl, rfl⟩
  reads := ⟨rfl, _, rfl, readsAt_append behind [] line hnul⟩

end VDebugger
