import VDebugger.Repl.RoundTrip

namespace VDebugger

variable {σ : Type} {handle : Handler σ} {buffer : Buffer} {size : Nat} {command : List CString}
  {token : CString}

-- What one character other than the semicolon, or the end of a line, does to the buffer.
def fill (buffer : Buffer) : Symbol → Buffer
  | none =>
      if peekBufferBack buffer ≠ nul then (writeToBuffer buffer nul).getD buffer else buffer
  | some next =>
      if !isWhitespace next then (writeToBuffer buffer next).getD (resetSeek buffer)
      else if peekBufferBack buffer ≠ nul then (writeToBuffer buffer nul).getD (resetSeek buffer)
      else buffer

theorem feed_symbol (handle : Handler σ) {symbol : Symbol} (h : symbol ≠ some ';')
    (rest : List Symbol) (buffer : Buffer) (s : Session σ) :
    feed handle (symbol :: rest) buffer s = feed handle rest (fill buffer symbol) s := by
  cases symbol with
  | none =>
      rw [feed, fill]
      split <;> rfl
  | some next =>
      have hend : next ≠ ';' := fun heq => h (congrArg some heq)
      rw [feed, if_neg hend, fill]
      by_cases hplain : (!isWhitespace next) = true
      · rw [if_pos hplain, if_pos hplain]
        cases writeToBuffer buffer next <;> rfl
      · rw [if_neg hplain, if_neg hplain]
        by_cases hback : peekBufferBack buffer ≠ nul
        · rw [if_pos hback, if_pos hback]
          cases writeToBuffer buffer nul <;> rfl
        · rw [if_neg hback, if_neg hback]

-- Nothing is executed before the semicolon.
theorem feed_text (handle : Handler σ) {text : List Symbol} (h : some ';' ∉ text)
    (rest : List Symbol) (buffer : Buffer) (s : Session σ) :
    feed handle (text ++ rest) buffer s = feed handle rest (text.foldl fill buffer) s := by
  induction text generalizing buffer with
  | nil => rfl
  | cons symbol text ih =>
      rw [List.cons_append, feed_symbol handle (fun heq => h (by rw [heq]; exact List.mem_cons_self)),
        ih fun hmem => h (List.mem_cons_of_mem _ hmem)]
      rfl

-- A blank or the end of a line.
def IsBlank (symbol : Symbol) : Prop := ∀ c, symbol = some c → isWhitespace c = true

theorem plain_of_not_blank {symbol : Symbol} (h : ¬IsBlank symbol) :
    ∃ c, symbol = some c ∧ isWhitespace c = false := by
  cases symbol with
  | none => exact absurd (fun c heq => by cases heq) h
  | some c =>
      refine ⟨c, rfl, ?_⟩
      rw [← Bool.not_eq_true]
      intro hspace
      refine h fun other heq => ?_
      rw [← Option.some.inj heq]
      exact hspace

-- What a symbol other than the semicolon makes of the tokens so far.
inductive Fills (size : Nat) (command : List CString) (token : CString) :
    Symbol → List CString → CString → Prop where
  | nothing {symbol : Symbol} (hblank : IsBlank symbol) (hnone : token = []) :
      Fills size command token symbol command token
  | ends {symbol : Symbol} (hblank : IsBlank symbol) (hne : token ≠ [])
      (hroom : (encode command ++ token).length < size) :
      Fills size command token symbol (command ++ [token]) []
  | stays (hne : token ≠ []) (hfull : size ≤ (encode command ++ token).length) :
      Fills size command token none command token
  | adds {c : Char} (hplain : isWhitespace c = false)
      (hroom : (encode command ++ token).length < size) :
      Fills size command token (some c) command (token ++ [c])
  | overflows {c : Char} (hwrites : isWhitespace c = false ∨ token ≠ [])
      (hfull : size ≤ (encode command ++ token).length) :
      Fills size command token (some c) [] []

-- The buffer holds whole tokens, and what there is of one more.
structure Typed (size : Nat) (buffer : Buffer) (command : List CString) (token : CString) :
    Prop where
  reads : Reads size buffer (encode command ++ token)
  whole : ∀ token ∈ command, IsToken token
  plain : ∀ c ∈ token, isWhitespace c = false ∧ c ≠ ';' ∧ c ≠ nul

namespace Typed

theorem reset (h : Reads size buffer []) : Typed size buffer [] [] where
  reads := h
  whole _ hmem := by cases hmem
  plain _ hmem := by cases hmem

theorem size_eq (h : Typed size buffer command token) : buffer.size = size := h.reads.size_eq

theorem wseek_eq (h : Typed size buffer command token) :
    buffer.wseek = (encode command ++ token).length := by
  rw [← Buffer.length_contents, h.reads.contents_eq]

theorem isToken (h : Typed size buffer command token) (hne : token ≠ []) : IsToken token :=
  ⟨hne, h.plain⟩

-- The last character is that of a token, or the null character behind one.
theorem back_iff (h : Typed size buffer command token) :
    peekBufferBack buffer ≠ nul ↔ token ≠ [] := by
  constructor
  · rintro hback rfl
    have hreads := h.reads
    rw [List.append_nil] at hreads
    exact hback (hreads.clean command)
  · intro hne
    obtain ⟨front, c, rfl⟩ := (List.eq_nil_or_concat token).resolve_left hne
    have hlast : peekBufferBack buffer = c := by
      apply Buffer.peekBufferBack_append (encode command ++ front)
      rw [h.reads.contents_eq, List.concat_eq_append, List.append_assoc]
    rw [hlast]
    exact (h.plain c (by simp)).2.2

theorem full (h : Typed size buffer command token)
    (hfull : size ≤ (encode command ++ token).length) (c : Char) :
    writeToBuffer buffer c = none := by
  apply Buffer.writeToBuffer_full
  rw [h.size_eq, h.wseek_eq]
  exact hfull

theorem resetSeek (h : Typed size buffer command token) : Typed size (resetSeek buffer) [] [] :=
  .reset h.reads.resetSeek

theorem length_le (h : Typed size buffer command token) :
    (encode command ++ token).length ≤ size := by
  have hle := buffer.wseek_le
  rw [h.wseek_eq, h.size_eq] at hle
  exact hle

-- The characters of a token are written as long as there is room.
theorem fill_plain (h : Typed size buffer command token) {c : Char}
    (hc : isWhitespace c = false ∧ c ≠ ';' ∧ c ≠ nul)
    (hroom : (encode command ++ token).length < size) :
    Typed size (fill buffer (some c)) command (token ++ [c]) := by
  obtain ⟨after, hwrite, hafter⟩ := h.reads.write c hroom
  rw [List.append_assoc] at hafter
  have hword : (!isWhitespace c) = true := by simp [hc.1]
  rw [fill, if_pos hword, hwrite, Option.getD_some]
  refine ⟨hafter, h.whole, ?_⟩
  intro other hmem
  rcases List.mem_append.mp hmem with hbefore | hlast
  · exact h.plain other hbefore
  · rw [List.mem_singleton.mp hlast]
    exact hc

theorem fill_plain_full (h : Typed size buffer command token) {c : Char}
    (hc : isWhitespace c = false) (hfull : size ≤ (encode command ++ token).length) :
    Typed size (fill buffer (some c)) [] [] := by
  have hword : (!isWhitespace c) = true := by simp [hc]
  rw [fill, if_pos hword, h.full hfull, Option.getD_none]
  exact h.resetSeek

-- The null character behind a token.
theorem ended (h : Typed size buffer command token) (hne : token ≠ [])
    (hroom : (encode command ++ token).length < size) :
    ∃ after, writeToBuffer buffer nul = some after ∧ Typed size after (command ++ [token]) [] := by
  obtain ⟨after, hwrite, hafter⟩ := h.reads.write nul hroom
  rw [← encode_concat, ← List.append_nil (encode (command ++ [token]))] at hafter
  refine ⟨after, hwrite, hafter, ?_, fun _ hmem => nomatch hmem⟩
  intro other hmem
  rcases List.mem_append.mp hmem with hbefore | hlast
  · exact h.whole other hbefore
  · rw [List.mem_singleton.mp hlast]
    exact h.isToken hne

theorem fill_gap {symbol : Symbol} (hgap : IsBlank symbol)
    (h : Typed size buffer command token) (hne : token ≠ [])
    (hroom : (encode command ++ token).length < size) :
    Typed size (fill buffer symbol) (command ++ [token]) [] := by
  obtain ⟨after, hwrite, hafter⟩ := h.ended hne hroom
  have hback := h.back_iff.mpr hne
  cases symbol with
  | none =>
      rw [fill, if_pos hback, hwrite]
      exact hafter
  | some c =>
      have hblank : ¬(!isWhitespace c) = true := by simp [hgap c rfl]
      rw [fill, if_neg hblank, if_pos hback, hwrite]
      exact hafter

theorem fill_gap_clean {symbol : Symbol} (hgap : IsBlank symbol)
    (h : Typed size buffer command []) : fill buffer symbol = buffer := by
  have hback : ¬peekBufferBack buffer ≠ nul := fun hback => h.back_iff.mp hback rfl
  cases symbol with
  | none => rw [fill, if_neg hback]
  | some c =>
      have hblank : ¬(!isWhitespace c) = true := by simp [hgap c rfl]
      rw [fill, if_neg hblank, if_neg hback]

-- At the end of a line a full buffer stays as it is; a blank makes it start again.
theorem fill_end_full (h : Typed size buffer command token) (hne : token ≠ [])
    (hfull : size ≤ (encode command ++ token).length) : fill buffer none = buffer := by
  rw [fill, if_pos (h.back_iff.mpr hne), h.full hfull, Option.getD_none]

theorem fill_blank_full (h : Typed size buffer command token) (hne : token ≠ []) {c : Char}
    (hc : isWhitespace c = true) (hfull : size ≤ (encode command ++ token).length) :
    Typed size (fill buffer (some c)) [] [] := by
  have hblank : ¬(!isWhitespace c) = true := by simp [hc]
  rw [fill, if_neg hblank, if_pos (h.back_iff.mpr hne), h.full hfull, Option.getD_none]
  exact h.resetSeek

theorem fill_cases (h : Typed size buffer command token) {symbol : Symbol}
    (hend : symbol ≠ some ';') (hnul : symbol ≠ some nul) :
    ∃ command' token', Fills size command token symbol command' token' ∧
      Typed size (fill buffer symbol) command' token' := by
  by_cases hblank : IsBlank symbol
  · by_cases hempty : token = []
    · subst hempty
      refine ⟨command, [], .nothing hblank rfl, ?_⟩
      rw [fill_gap_clean hblank h]
      exact h
    · by_cases hroom : (encode command ++ token).length < size
      · exact ⟨_, _, .ends hblank hempty hroom, h.fill_gap hblank hempty hroom⟩
      · have hfull := Nat.not_lt.mp hroom
        cases symbol with
        | none =>
            refine ⟨command, token, .stays hempty hfull, ?_⟩
            rw [h.fill_end_full hempty hfull]
            exact h
        | some c =>
            exact ⟨_, _, .overflows (.inr hempty) hfull,
              h.fill_blank_full hempty (hblank c rfl) hfull⟩
  · obtain ⟨c, rfl, hplain⟩ := plain_of_not_blank hblank
    by_cases hroom : (encode command ++ token).length < size
    · refine ⟨_, _, .adds hplain hroom, h.fill_plain ⟨hplain, ?_, ?_⟩ hroom⟩
      · exact fun heq => hend (congrArg some heq)
      · exact fun heq => hnul (congrArg some heq)
    · exact ⟨_, _, .overflows (.inl hplain) (Nat.not_lt.mp hroom),
        h.fill_plain_full hplain (Nat.not_lt.mp hroom)⟩

end Typed

-- A buffer that is ready to be read holds these tokens. There may be no room for the null
-- character behind the last of them; the one behind the buffer ends it then.
inductive HoldsCommand (size : Nat) (buffer : Buffer) : List CString → Prop where
  | ended {command : List CString} {tail : CString} (hwhole : ∀ token ∈ command, IsToken token)
      (htail : tail = [] ∨ tail = [nul]) (hreads : Reads size buffer (encode command ++ tail)) :
      HoldsCommand size buffer command
  | cut {command : List CString} {token : CString} (hwhole : ∀ token ∈ command, IsToken token)
      (htoken : IsToken token) (hreads : Reads size buffer (encode command ++ token))
      (hfull : (encode command ++ token).length = size) :
      HoldsCommand size buffer (command ++ [token])

-- What the semicolon makes of the buffer.
theorem Typed.holds (h : Typed size buffer command token) :
    HoldsCommand size ((writeToBuffer buffer nul).getD buffer)
      (if token = [] then command else command ++ [token]) := by
  by_cases hroom : (encode command ++ token).length < size
  · by_cases hempty : token = []
    · subst hempty
      obtain ⟨after, hwrite, hafter⟩ := h.reads.write nul hroom
      rw [List.append_nil] at hafter
      rw [hwrite, Option.getD_some, if_pos rfl]
      exact .ended h.whole (.inr rfl) hafter
    · obtain ⟨after, hwrite, hafter⟩ := h.ended hempty hroom
      rw [hwrite, Option.getD_some, if_neg hempty]
      exact .ended hafter.whole (.inl rfl) hafter.reads
  · have hfull := Nat.not_lt.mp hroom
    rw [h.full hfull, Option.getD_none]
    by_cases hempty : token = []
    · subst hempty
      rw [if_pos rfl]
      exact .ended h.whole (.inl rfl) h.reads
    · rw [if_neg hempty]
      exact .cut h.whole (h.isToken hempty) h.reads (Nat.le_antisymm h.length_le hfull)

namespace HoldsCommand

theorem reads (h : HoldsCommand size buffer command) : ∃ contents, Reads size buffer contents := by
  cases h with
  | ended _ _ hreads => exact ⟨_, hreads⟩
  | cut _ _ hreads => exact ⟨_, hreads⟩

theorem whole (h : HoldsCommand size buffer command) : ∀ token ∈ command, IsToken token := by
  cases h with
  | ended hwhole => exact hwhole
  | cut hwhole htoken =>
      intro token hmem
      rcases List.mem_append.mp hmem with hbefore | hlast
      · exact hwhole token hbefore
      · rw [List.mem_singleton.mp hlast]
        exact htoken

theorem tokens_eq (h : HoldsCommand size buffer command) (hsize : size ≠ 0) :
    tokens buffer = command := by
  cases h with
  | ended hwhole htail hreads =>
      exact tokens_encode hwhole htail (by rw [hreads.size_eq]; exact hsize) hreads.rseek
        hreads.contents_eq
  | @cut command token hwhole htoken hreads hfull =>
      obtain ⟨c, characters, rfl⟩ := List.exists_cons_of_ne_nil htoken.ne_nil
      have hwseek : buffer.wseek = buffer.size := by
        rw [← Buffer.length_contents, hreads.contents_eq, hreads.size_eq, hfull]
      have hcount := length_le_length_encode command
      have hlength := hreads.size_eq
      rw [List.length_append, List.length_cons] at hfull
      obtain ⟨passes, hpasses⟩ : ∃ n, buffer.size + 1 = command.length + (n + 1 + 1) :=
        ⟨buffer.size - command.length - 1, by omega⟩
      have hdrop : buffer.contents.drop buffer.rseek = encode command ++ c :: characters := by
        rw [hreads.rseek, List.drop_zero, hreads.contents_eq]
      have hlast : nextToken (buffer.seekTo (buffer.rseek + (encode command).length))
          = (some (c :: characters), buffer.seekTo buffer.size) := by
        refine Buffer.nextToken_last htoken.nul_not_mem
          (show (buffer.seekTo _).wseek = (buffer.seekTo _).size from hwseek) ?_
        rw [Buffer.contents_seekTo, Buffer.rseek_seekTo, ← List.drop_drop, hdrop, List.drop_left]
      have hend : nextToken (buffer.seekTo buffer.size) = (none, buffer.seekTo buffer.size) := by
        unfold nextToken
        exact if_pos buffer.ended
      unfold tokens
      rw [hpasses, tokensFrom_append hwhole _ hdrop, tokensFrom, hlast]
      simp only [tokensFrom, hend]

end HoldsCommand

-- The characters of a token, as `parse_input` reads them.
theorem parseInput_token {contents token : CString} (h : Reads size buffer contents)
    (hplain : ∀ c ∈ token, isWhitespace c = false ∧ c ≠ ';' ∧ c ≠ nul)
    (hfits : contents.length + token.length ≤ size) (line : CString) :
    ∃ after, Reads size after (contents ++ token) ∧
      parseInput buffer (token ++ line) = parseInput after line := by
  refine h.token (fun token buffer => parseInput buffer (token ++ line)) hplain hfits ?_
  intro c more buffer next hblank hend hwrite
  have hword : (!isWhitespace c) = true := by simp [hblank]
  rw [List.cons_append, parseInput, if_neg hend, if_pos hword, hwrite]

-- What `parse_input` leaves of such a buffer, by its result.
structure Parsed (size : Nat) (result : Int × Buffer × CString) : Prop where
  ready : result.1 = 1 → ∃ buffer command token, Typed size buffer command token ∧
    result.2.1 = (writeToBuffer buffer nul).getD buffer
  unfinished : result.1 ≠ 1 → ∃ command token, Typed size result.2.1 command token

theorem Typed.parsed (h : Typed size buffer command token) {line : CString} (hnul : nul ∉ line) :
    Parsed size (parseInput buffer line) := by
  induction line generalizing buffer command token with
  | nil =>
      have hfill : (parseInput buffer []).2.1 = fill buffer none := by
        unfold parseInput fill
        split <;> rfl
      have hres : (parseInput buffer []).1 = 0 := by
        unfold parseInput
        split <;> rfl
      obtain ⟨command', token', _, hnext⟩ :=
        h.fill_cases (show (none : Symbol) ≠ some ';' by decide) (by decide)
      rw [← hfill] at hnext
      constructor
      · intro hone
        rw [hres] at hone
        cases hone
      · intro _
        exact ⟨command', token', hnext⟩
  | cons next line ih =>
      rw [List.mem_cons, not_or] at hnul
      by_cases hend : next = ';'
      · have hparse : parseInput buffer (next :: line)
            = (1, (writeToBuffer buffer nul).getD buffer, line) := by
          rw [parseInput, if_pos hend]
        rw [hparse]
        exact ⟨fun _ => ⟨buffer, command, token, h, rfl⟩, fun hne => absurd rfl hne⟩
      · have hsymbol : some next ≠ some ';' := fun heq => hend (Option.some.inj heq)
        obtain ⟨command', token', _, hnext⟩ :=
          h.fill_cases hsymbol fun heq => hnul.1 (Option.some.inj heq).symm
        have hstop : Parsed size (-1, buffer, line) :=
          ⟨fun hone => absurd hone (show (-1 : Int) ≠ 1 by decide), fun _ => ⟨command, token, h⟩⟩
        simp only [fill] at hnext
        rw [parseInput, if_neg hend]
        by_cases hplain : (!isWhitespace next) = true
        · rw [if_pos hplain] at hnext ⊢
          cases hwrite : writeToBuffer buffer next with
          | none => exact hstop
          | some after =>
              rw [hwrite] at hnext
              exact ih hnext hnul.2
        · rw [if_neg hplain] at hnext ⊢
          by_cases hback : peekBufferBack buffer ≠ nul
          · rw [if_pos hback] at hnext ⊢
            cases hwrite : writeToBuffer buffer nul with
            | none => exact hstop
            | some after =>
                rw [hwrite] at hnext
                exact ih hnext hnul.2
          · rw [if_neg hback]
            exact ih h hnul.2

-- The buffer as `run_debugger` has it each time it calls `parse_input`, for any lines typed
-- so far. The handlers move `rseek` alone, and it is reset behind them.
inductive LoopBuffer (malloc : Nat → Char) : Buffer → Prop where
  | start : LoopBuffer malloc (newBuffer malloc CMD_MAX_SIZE)
  | line {buffer after : Buffer} {line rest : CString} (h : LoopBuffer malloc buffer)
      (hnul : nul ∉ line) (hparse : parseInput buffer line = (0, after, rest)) :
      LoopBuffer malloc after
  | reset {buffer after : Buffer} {line rest : CString} {res : Int} (h : LoopBuffer malloc buffer)
      (hnul : nul ∉ line) (hne : res ≠ 0) (hparse : parseInput buffer line = (res, after, rest)) :
      LoopBuffer malloc (resetSeek after)

-- A buffer with a command that is ready to be read.
def Delivered (malloc : Nat → Char) (after : Buffer) : Prop :=
  ∃ buffer line rest, LoopBuffer malloc buffer ∧ nul ∉ line ∧
    parseInput buffer line = (1, after, rest)

theorem LoopBuffer.typed {malloc : Nat → Char} (h : LoopBuffer malloc buffer) :
    ∃ command token, Typed CMD_MAX_SIZE buffer command token := by
  induction h with
  | start => exact ⟨[], [], .reset ⟨rfl, rfl, rfl⟩⟩
  | line _ hnul hparse ih =>
      obtain ⟨command, token, htyped⟩ := ih
      have hparsed := (htyped.parsed hnul).unfinished
      rw [hparse] at hparsed
      exact hparsed (show (0 : Int) ≠ 1 by decide)
  | @reset buffer after line rest res _ hnul hne hparse ih =>
      obtain ⟨command, token, htyped⟩ := ih
      have hparsed := htyped.parsed hnul
      rw [hparse] at hparsed
      by_cases hone : res = 1
      · obtain ⟨before, _, _, hbefore, heq⟩ := hparsed.ready hone
        have hholds := hbefore.holds
        rw [← heq] at hholds
        obtain ⟨contents, hcontents⟩ := hholds.reads
        exact ⟨[], [], .reset hcontents.resetSeek⟩
      · obtain ⟨_, _, hafter⟩ := hparsed.unfinished hone
        exact ⟨[], [], hafter.resetSeek⟩

theorem Delivered.holds {malloc : Nat → Char} {after : Buffer} (h : Delivered malloc after) :
    HoldsCommand CMD_MAX_SIZE after (tokens after) := by
  obtain ⟨buffer, line, rest, hloop, hnul, hparse⟩ := h
  obtain ⟨command, token, htyped⟩ := hloop.typed
  have hparsed := (htyped.parsed hnul).ready
  rw [hparse] at hparsed
  obtain ⟨before, _, _, hbefore, rfl⟩ := hparsed rfl
  rw [hbefore.holds.tokens_eq (by decide)]
  exact hbefore.holds

end VDebugger
