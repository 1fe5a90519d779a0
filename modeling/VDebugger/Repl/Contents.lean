import VDebugger.Repl

namespace VDebugger

variable {buffer : Buffer}

namespace Buffer

-- What has been written since the last `reset_seek`. The characters behind it are left
-- from earlier commands or were never written.
def contents (buffer : Buffer) : CString := (List.range buffer.wseek).map buffer.data

-- The buffer to be read from `seek` on.
def seekTo (buffer : Buffer) (seek : Nat) : Buffer := { buffer with rseek := seek }

@[simp] theorem contents_seekTo (buffer : Buffer) (seek : Nat) :
    (buffer.seekTo seek).contents = buffer.contents := rfl

@[simp] theorem rseek_seekTo (buffer : Buffer) (seek : Nat) : (buffer.seekTo seek).rseek = seek := rfl

@[simp] theorem length_contents (buffer : Buffer) : buffer.contents.length = buffer.wseek := by
  simp [contents]

@[simp] theorem contents_resetSeek (buffer : Buffer) : (resetSeek buffer).contents = [] := rfl

-- The character at a place of the contents, and those behind it.
theorem contents_drop {seek : Nat} {c : Char} {rest : CString}
    (h : buffer.contents.drop seek = c :: rest) :
    seek < buffer.wseek ∧ buffer.data seek = c ∧ buffer.contents.drop (seek + 1) = rest := by
  have hlt : seek < buffer.contents.length := by
    by_contra hge
    rw [List.drop_eq_nil_of_le (by omega)] at h
    cases h
  rw [List.drop_eq_getElem_cons hlt] at h
  obtain ⟨hhead, htail⟩ := List.cons.inj h
  refine ⟨by simpa using hlt, ?_, htail⟩
  rw [← hhead]
  simp [contents]

theorem writeToBuffer_room (hroom : buffer.wseek < buffer.size) (c : Char) :
    ∃ after, writeToBuffer buffer c = some after ∧ after.contents = buffer.contents ++ [c] ∧
      after.size = buffer.size ∧ after.rseek = buffer.rseek := by
  unfold writeToBuffer
  rw [dif_pos hroom]
  refine ⟨_, rfl, ?_, rfl, rfl⟩
  have hkept : (List.range buffer.wseek).map
      (fun i => if i = buffer.wseek then c else buffer.data i) = buffer.contents := by
    apply List.map_congr_left
    intro i hi
    rw [if_neg (Nat.ne_of_lt (List.mem_range.mp hi))]
  simp only [contents, List.range_succ, List.map_append, hkept, List.map_cons, List.map_nil, if_true]

theorem writeToBuffer_full (hfull : buffer.size ≤ buffer.wseek) (c : Char) :
    writeToBuffer buffer c = none := by
  unfold writeToBuffer
  rw [dif_neg (Nat.not_lt.mpr hfull)]

theorem peekBufferBack_empty (h : buffer.contents = []) : peekBufferBack buffer = nul := by
  have hseek : buffer.wseek = 0 := by
    rw [← length_contents, h, List.length_nil]
  simp [peekBufferBack, hseek]

theorem peekBufferBack_append (before : CString) {c : Char}
    (h : buffer.contents = before ++ [c]) : peekBufferBack buffer = c := by
  have hlen : buffer.wseek = before.length + 1 := by
    rw [← length_contents, h, List.length_append, List.length_singleton]
  have hle := buffer.wseek_le
  have hdrop : buffer.contents.drop before.length = [c] := by
    rw [h, List.drop_left]
  have hat := (contents_drop hdrop).2.1
  unfold peekBufferBack
  rw [if_neg (by omega), hlen, Nat.add_sub_cancel]
  exact hat

theorem readFromBuffer_contents {c : Char} {rest : CString}
    (h : buffer.contents.drop buffer.rseek = c :: rest) :
    readFromBuffer buffer = (c, buffer.seekTo (buffer.rseek + 1)) := by
  obtain ⟨hlt, hat, _⟩ := contents_drop h
  have hle := buffer.wseek_le
  unfold readFromBuffer
  rw [if_neg (by omega), if_pos (by omega), hat]
  rfl

-- The loop stops behind the null character that ends the token.
theorem skipCharacters_token {token rest : CString} (hnul : nul ∉ token) {passes : Nat}
    (hpasses : token.length < passes)
    (h : buffer.contents.drop buffer.rseek = token ++ nul :: rest) :
    skipCharacters passes buffer
      = (token, buffer.seekTo (buffer.rseek + token.length + 1)) := by
  induction token generalizing buffer passes with
  | nil =>
      obtain ⟨passes, rfl⟩ : ∃ n, passes = n + 1 := ⟨passes - 1, by omega⟩
      unfold skipCharacters
      simp only [readFromBuffer_contents h, if_true]
      rfl
  | cons c token ih =>
      rw [List.length_cons] at hpasses
      obtain ⟨passes, rfl⟩ : ∃ n, passes = n + 1 := ⟨passes - 1, by omega⟩
      have hc : ¬c = nul := fun heq => hnul (by rw [heq]; exact List.mem_cons_self)
      have hbehind : (buffer.seekTo (buffer.rseek + 1)).contents.drop
          (buffer.seekTo (buffer.rseek + 1)).rseek = token ++ nul :: rest := (contents_drop h).2.2
      have hrest := ih (fun hmem => hnul (List.mem_cons_of_mem _ hmem))
        (show token.length < passes by omega) hbehind
      unfold skipCharacters
      simp only [readFromBuffer_contents h, if_neg hc, hrest, List.length_cons]
      rw [rseek_seekTo, Nat.add_assoc buffer.rseek, Nat.add_comm 1]
      rfl

theorem nextToken_some {c : Char} {token rest : CString} (hnul : nul ∉ c :: token)
    (h : buffer.contents.drop buffer.rseek = c :: token ++ nul :: rest) :
    nextToken buffer
      = (some (c :: token), buffer.seekTo (buffer.rseek + (token.length + 1) + 1)) := by
  obtain ⟨hlt, hat, _⟩ := contents_drop h
  have hle := buffer.wseek_le
  have hc : ¬buffer.data buffer.rseek = nul := by
    rw [hat]
    exact fun heq => hnul (by rw [heq]; exact List.mem_cons_self)
  have hlen : (buffer.contents.drop buffer.rseek).length = (c :: token ++ nul :: rest).length :=
    congrArg List.length h
  rw [List.length_drop, length_contents, List.length_append, List.length_cons, List.length_cons]
    at hlen
  unfold nextToken
  rw [if_neg hc, if_neg (by omega)]
  rw [skipCharacters_token hnul (by rw [List.length_cons]; omega) h]
  rfl

-- Where the buffer is full, the null character behind it ends the last token, and reading
-- does not go past that.
theorem skipCharacters_last {token : CString} (hnul : nul ∉ token)
    (hfull : buffer.wseek = buffer.size) (hsize : buffer.size ≠ 0) {passes : Nat}
    (hpasses : token.length < passes) (hle : buffer.rseek ≤ buffer.wseek)
    (h : buffer.contents.drop buffer.rseek = token) :
    skipCharacters passes buffer = (token, buffer.seekTo buffer.size) := by
  induction token generalizing buffer passes with
  | nil =>
      obtain ⟨passes, rfl⟩ : ∃ n, passes = n + 1 := ⟨passes - 1, by omega⟩
      have hge : buffer.wseek ≤ buffer.rseek := by
        rw [← length_contents]
        exact List.drop_eq_nil_iff.mp h
      have hseek : buffer.rseek = buffer.size := by omega
      have hread : readFromBuffer buffer = (nul, buffer) := by
        unfold readFromBuffer
        rw [if_neg hsize, if_neg (by omega)]
      unfold skipCharacters
      simp only [hread, if_true]
      rw [← hseek]
      rfl
  | cons c token ih =>
      rw [List.length_cons] at hpasses
      obtain ⟨passes, rfl⟩ : ∃ n, passes = n + 1 := ⟨passes - 1, by omega⟩
      have hc : ¬c = nul := fun heq => hnul (by rw [heq]; exact List.mem_cons_self)
      obtain ⟨hlt, _, hbehind⟩ := contents_drop h
      have hmore : token.length < passes := by omega
      have hrest := ih (fun hmem => hnul (List.mem_cons_of_mem _ hmem))
        (show (buffer.seekTo (buffer.rseek + 1)).wseek = (buffer.seekTo (buffer.rseek + 1)).size
          from hfull) hsize hmore hlt hbehind
      unfold skipCharacters
      simp only [readFromBuffer_contents h, if_neg hc, hrest]
      rfl

theorem nextToken_last {c : Char} {token : CString} (hnul : nul ∉ c :: token)
    (hfull : buffer.wseek = buffer.size) (h : buffer.contents.drop buffer.rseek = c :: token) :
    nextToken buffer = (some (c :: token), buffer.seekTo buffer.size) := by
  obtain ⟨hlt, hat, _⟩ := contents_drop h
  have hc : ¬buffer.data buffer.rseek = nul := by
    rw [hat]
    exact fun heq => hnul (by rw [heq]; exact List.mem_cons_self)
  have hlen := congrArg List.length h
  rw [List.length_drop, length_contents] at hlen
  unfold nextToken
  rw [if_neg hc, if_neg (by omega),
    skipCharacters_last hnul hfull (by omega) (by omega) hlt.le h]

-- There is no token at the end of the contents, whatever stands behind them.
theorem nextToken_end (hsize : buffer.size ≠ 0)
    (h : buffer.contents.drop buffer.rseek = [] ∨ buffer.contents.drop buffer.rseek = [nul]) :
    (nextToken buffer).1 = none := by
  unfold nextToken
  by_cases hnul : buffer.data buffer.rseek = nul
  · rw [if_pos hnul]
  · rw [if_neg hnul]
    cases h with
    | inl hend =>
        have hge : buffer.wseek ≤ buffer.rseek := by
          rw [← length_contents]
          exact List.drop_eq_nil_iff.mp hend
        rw [if_pos ⟨hsize, hge⟩]
    | inr hlast => exact absurd (contents_drop hlast).2.1 hnul

end Buffer

-- The tokens of a command as the buffer holds them.
def encode (command : List CString) : CString := command.flatMap fun token => token ++ [nul]

@[simp] theorem encode_nil : encode [] = [] := rfl

@[simp] theorem encode_cons (token : CString) (rest : List CString) :
    encode (token :: rest) = token ++ nul :: encode rest := by
  simp [encode]

theorem encode_append (first second : List CString) :
    encode (first ++ second) = encode first ++ encode second := List.flatMap_append

theorem length_encode (command : List CString) :
    (encode command).length = (command.map fun token => token.length + 1).sum := by
  induction command with
  | nil => rfl
  | cons token rest ih =>
      rw [encode_cons, List.length_append, List.length_cons, ih, List.map_cons, List.sum_cons]
      omega

-- A token has characters, none of them blank, a semicolon or the null character.
structure IsToken (token : CString) : Prop where
  ne_nil : token ≠ []
  plain : ∀ c ∈ token, isWhitespace c = false ∧ c ≠ ';' ∧ c ≠ nul

theorem IsToken.nul_not_mem {token : CString} (h : IsToken token) : nul ∉ token :=
  fun hmem => (h.plain nul hmem).2.2 rfl

theorem length_le_length_encode (command : List CString) :
    command.length ≤ (encode command).length := by
  induction command with
  | nil => exact Nat.le_refl 0
  | cons token rest ih =>
      rw [encode_cons, List.length_append, List.length_cons, List.length_cons]
      omega

-- The tokens that are whole come first, and then those that are read behind them.
theorem tokensFrom_append {command : List CString} (htokens : ∀ token ∈ command, IsToken token)
    {tail : CString} (passes : Nat)
    (h : buffer.contents.drop buffer.rseek = encode command ++ tail) :
    tokensFrom (command.length + passes) buffer
      = command ++
        tokensFrom passes (buffer.seekTo (buffer.rseek + (encode command).length)) := by
  induction command generalizing buffer with
  | nil => rw [List.length_nil, Nat.zero_add, encode_nil, List.nil_append]; rfl
  | cons token rest ih =>
      have htoken := htokens token List.mem_cons_self
      obtain ⟨c, characters, rfl⟩ := List.exists_cons_of_ne_nil htoken.ne_nil
      rw [encode_cons, List.append_assoc, List.cons_append] at h
      have hnext := Buffer.nextToken_some htoken.nul_not_mem h
      have hdrop : (buffer.seekTo (buffer.rseek + (characters.length + 1) + 1)).contents.drop
          (buffer.seekTo (buffer.rseek + (characters.length + 1) + 1)).rseek
            = encode rest ++ tail := by
        have hbehind := congrArg (List.drop (characters.length + 1 + 1)) h
        rw [List.drop_drop] at hbehind
        rw [Buffer.rseek_seekTo, Buffer.contents_seekTo, Nat.add_assoc, hbehind]
        simp
      have hrest := ih (fun token hmem => htokens token (List.mem_cons_of_mem _ hmem)) hdrop
      have hseek : buffer.rseek + (characters.length + 1) + 1 + (encode rest).length
          = buffer.rseek + (encode ((c :: characters) :: rest)).length := by
        rw [encode_cons, List.length_append, List.length_cons, List.length_cons]
        omega
      rw [Buffer.rseek_seekTo, hseek] at hrest
      rw [List.length_cons, Nat.add_right_comm, tokensFrom, hnext]
      exact congrArg _ hrest

theorem tokensFrom_encode {command : List CString} (htokens : ∀ token ∈ command, IsToken token)
    {tail : CString} (htail : tail = [] ∨ tail = [nul]) (hsize : buffer.size ≠ 0) {passes : Nat}
    (hpasses : command.length < passes)
    (h : buffer.contents.drop buffer.rseek = encode command ++ tail) :
    tokensFrom passes buffer = command := by
  obtain ⟨passes, rfl⟩ : ∃ n, passes = command.length + (n + 1) :=
    ⟨passes - command.length - 1, by omega⟩
  have hend : (nextToken (buffer.seekTo (buffer.rseek + (encode command).length))).1 = none := by
    refine Buffer.nextToken_end (show (buffer.seekTo _).size ≠ 0 from hsize) ?_
    rw [Buffer.contents_seekTo, Buffer.rseek_seekTo, ← List.drop_drop, h, List.drop_left]
    exact htail
  rw [tokensFrom_append htokens _ h, tokensFrom]
  rcases hnext : nextToken (buffer.seekTo (buffer.rseek + (encode command).length)) with
    ⟨found, after⟩
  rw [hnext] at hend
  obtain rfl : found = none := hend
  exact List.append_nil command

theorem tokens_encode {command : List CString} (htokens : ∀ token ∈ command, IsToken token)
    {tail : CString} (htail : tail = [] ∨ tail = [nul]) (hsize : buffer.size ≠ 0)
    (hseek : buffer.rseek = 0) (h : buffer.contents = encode command ++ tail) :
    tokens buffer = command := by
  have hfits : command.length ≤ buffer.size := by
    have hlen := congrArg List.length h
    rw [Buffer.length_contents, List.length_append] at hlen
    have hcount := length_le_length_encode command
    have hle := buffer.wseek_le
    omega
  apply tokensFrom_encode htokens htail hsize (by omega)
  rw [hseek, List.drop_zero]
  exact h

end VDebugger
