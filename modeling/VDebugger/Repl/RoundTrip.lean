import VDebugger.Repl.Contents

namespace VDebugger

variable {σ : Type} {handle : Handler σ} {buffer : Buffer}

-- A character of a line, or its end.
abbrev Symbol : Type := Option Char

def symbols (lines : List CString) : List Symbol := lines.flatMap fun line => line.map some ++ [none]

-- The line's characters one by one, over the ends of lines.
def feed (handle : Handler σ) : List Symbol → Buffer → Session σ → Session σ
  | [], _, s => s
  | none :: rest, buffer, s =>
      if peekBufferBack buffer ≠ nul then
        feed handle rest ((writeToBuffer buffer nul).getD buffer) s
      else feed handle rest buffer s
  | some next :: rest, buffer, s =>
      if next = ';' then
        let buffer := (writeToBuffer buffer nul).getD buffer
        match s.command handle (tokens buffer) with
        | (true, s) => s
        | (false, s) => feed handle rest (resetSeek buffer) s
      else if !isWhitespace next then
        match writeToBuffer buffer next with
        | none => feed handle rest (resetSeek buffer) s
        | some buffer => feed handle rest buffer s
      else if peekBufferBack buffer ≠ nul then
        match writeToBuffer buffer nul with
        | none => feed handle rest (resetSeek buffer) s
        | some buffer => feed handle rest buffer s
      else feed handle rest buffer s

theorem parseLine_congr {after : Buffer} {line rest : CString}
    (h : parseInput buffer line = parseInput after rest) (s : Session σ) :
    parseLine handle buffer s line = parseLine handle after s rest := by
  have hleft := parseLine.eq_def handle buffer s line
  have hright := parseLine.eq_def handle after s rest
  rw [hleft, hright, h]

theorem feed_line (line : CString) (rest : List Symbol) (buffer : Buffer) (s : Session σ) :
    feed handle (line.map some ++ none :: rest) buffer s =
      match parseLine handle buffer s line with
      | (true, _, s) => s
      | (false, buffer, s) => feed handle rest buffer s := by
  induction line generalizing buffer s with
  | nil =>
      rw [parseLine]
      simp only [parseInput, List.map_nil, List.nil_append, feed]
      split <;> rfl
  | cons next line ih =>
      rw [List.map_cons, List.cons_append, feed]
      by_cases hend : next = ';'
      · rw [if_pos hend, parseLine]
        simp only [parseInput, if_pos hend]
        cases hcommand : s.command handle (tokens ((writeToBuffer buffer nul).getD buffer)) with
        | mk stop t =>
            cases stop with
            | true => rfl
            | false => exact ih _ _
      · rw [if_neg hend]
        by_cases hplain : (!isWhitespace next) = true
        · rw [if_pos hplain]
          cases hwrite : writeToBuffer buffer next with
          | none =>
              rw [parseLine]
              simp only [parseInput, if_neg hend, if_pos hplain, hwrite]
              exact ih _ _
          | some after =>
              have hparse : parseInput buffer (next :: line) = parseInput after line := by
                rw [parseInput, if_neg hend, if_pos hplain, hwrite]
              rw [parseLine_congr hparse]
              exact ih _ _
        · rw [if_neg hplain]
          by_cases hback : peekBufferBack buffer ≠ nul
          · rw [if_pos hback]
            cases hwrite : writeToBuffer buffer nul with
            | none =>
                rw [parseLine]
                simp only [parseInput, if_neg hend, if_neg hplain, if_pos hback, hwrite]
                exact ih _ _
            | some after =>
                have hparse : parseInput buffer (next :: line) = parseInput after line := by
                  rw [parseInput, if_neg hend, if_neg hplain, if_pos hback, hwrite]
                rw [parseLine_congr hparse]
                exact ih _ _
          · have hparse : parseInput buffer (next :: line) = parseInput buffer line := by
              rw [parseInput, if_neg hend, if_neg hplain, if_neg hback]
            rw [if_neg hback, parseLine_congr hparse]
            exact ih _ _

-- The two loops of `run_debugger` go over the symbols of the lines in order.
theorem pollLoop_eq_feed (lines : List CString) (buffer : Buffer) (s : Session σ) :
    pollLoop handle buffer s lines = feed handle (symbols lines) buffer s := by
  induction lines generalizing buffer s with
  | nil => rfl
  | cons line lines ih =>
      have hsymbols : symbols (line :: lines) = line.map some ++ none :: symbols lines := by
        simp [symbols]
      rw [hsymbols, feed_line, pollLoop]
      rcases parseLine handle buffer s line with ⟨_ | _, after, t⟩
      · exact ih after t
      · rfl

-- Blanks and ends of lines.
def IsGap (gap : List Symbol) : Prop := ∀ symbol ∈ gap, ∀ c, symbol = some c → isWhitespace c = true

-- A command from its first token to its semicolon.
inductive Written : List CString → List Symbol → Prop where
  | last {token : CString} {gap : List Symbol} (hgap : IsGap gap) :
      Written [token] (token.map some ++ (gap ++ [some ';']))
  | more {token : CString} {rest : List CString} {gap stream : List Symbol} (hgap : IsGap gap)
      (hne : gap ≠ []) (hrest : Written rest stream) :
      Written (token :: rest) (token.map some ++ (gap ++ stream))

-- The commands of a session with what stands before, between and behind them.
inductive WrittenAll : List (List CString) → List Symbol → Prop where
  | done {gap : List Symbol} (hgap : IsGap gap) : WrittenAll [] gap
  | command {gap stream streams : List Symbol} {command : List CString} {rest : List (List CString)}
      (hgap : IsGap gap) (hcommand : Written command stream) (hrest : WrittenAll rest streams) :
      WrittenAll (command :: rest) (gap ++ (stream ++ streams))

theorem ne_semicolon_of_blank {c : Char} (h : isWhitespace c = true) : c ≠ ';' := by
  rintro rfl
  cases h

-- The buffer holds so much of a command.
structure Reads (size : Nat) (buffer : Buffer) (contents : CString) : Prop where
  size_eq : buffer.size = size
  rseek : buffer.rseek = 0
  contents_eq : buffer.contents = contents

theorem Reads.write {size : Nat} {contents : CString} (h : Reads size buffer contents) (c : Char)
    (hroom : contents.length < size) :
    ∃ after, writeToBuffer buffer c = some after ∧ Reads size after (contents ++ [c]) := by
  have hlt : buffer.wseek < buffer.size := by
    rw [← Buffer.length_contents, h.contents_eq, h.size_eq]
    exact hroom
  obtain ⟨after, hwrite, hcontents, hsize, hseek⟩ := Buffer.writeToBuffer_room hlt c
  refine ⟨after, hwrite, hsize.trans h.size_eq, hseek.trans h.rseek, ?_⟩
  rw [hcontents, h.contents_eq]

theorem Reads.resetSeek {size : Nat} {contents : CString} (h : Reads size buffer contents) :
    Reads size (resetSeek buffer) [] := ⟨h.size_eq, rfl, Buffer.contents_resetSeek buffer⟩

-- Behind whole tokens, blanks and ends of lines write nothing.
theorem feed_gap_clean (handle : Handler σ) (hclean : peekBufferBack buffer = nul)
    {gap : List Symbol} (hgap : IsGap gap) (rest : List Symbol) (s : Session σ) :
    feed handle (gap ++ rest) buffer s = feed handle rest buffer s := by
  induction gap with
  | nil => rfl
  | cons symbol gap ih =>
      have hmore : IsGap gap := fun symbol hmem => hgap symbol (List.mem_cons_of_mem _ hmem)
      have hback : ¬peekBufferBack buffer ≠ nul := not_not_intro hclean
      rw [List.cons_append]
      cases symbol with
      | none =>
          rw [feed, if_neg hback]
          exact ih hmore
      | some c =>
          have hblank := hgap (some c) List.mem_cons_self c rfl
          have hplain : ¬(!isWhitespace c) = true := by simp [hblank]
          rw [feed, if_neg (ne_semicolon_of_blank hblank), if_neg hplain, if_neg hback]
          exact ih hmore

theorem encode_concat (command : List CString) (token : CString) :
    encode (command ++ [token]) = encode command ++ token ++ [nul] := by
  rw [encode_append, encode_cons, encode_nil, List.append_assoc]

-- The first blank or end of line behind a token ends it.
theorem feed_gap_token (handle : Handler σ) {size : Nat} {command : List CString} {token : CString}
    (h : Reads size buffer (encode command ++ token)) (htoken : IsToken token)
    (hfits : (encode (command ++ [token])).length ≤ size) {gap : List Symbol} (hgap : IsGap gap)
    (hne : gap ≠ []) (rest : List Symbol) (s : Session σ) :
    ∃ after, Reads size after (encode (command ++ [token])) ∧
      feed handle (gap ++ rest) buffer s = feed handle rest after s := by
  rw [encode_concat, List.length_append, List.length_singleton] at hfits
  obtain ⟨after, hwrite, hafter⟩ := h.write nul (by omega)
  rw [← encode_concat] at hafter
  have hclean : peekBufferBack after = nul := by
    apply Buffer.peekBufferBack_append (encode command ++ token)
    rw [hafter.contents_eq, encode_concat]
  have hback : peekBufferBack buffer ≠ nul := by
    obtain ⟨front, c, rfl⟩ := (List.eq_nil_or_concat token).resolve_left htoken.ne_nil
    have hlast : peekBufferBack buffer = c := by
      apply Buffer.peekBufferBack_append (encode command ++ front)
      rw [h.contents_eq, List.concat_eq_append, List.append_assoc]
    rw [hlast]
    exact (htoken.plain c (by simp)).2.2
  refine ⟨after, hafter, ?_⟩
  cases gap with
  | nil => exact absurd rfl hne
  | cons symbol gap =>
      have hmore : IsGap gap := fun symbol hmem => hgap symbol (List.mem_cons_of_mem _ hmem)
      rw [List.cons_append]
      cases symbol with
      | none =>
          rw [feed, if_pos hback, hwrite]
          exact feed_gap_clean handle hclean hmore rest s
      | some c =>
          have hblank := hgap (some c) List.mem_cons_self c rfl
          have hplain : ¬(!isWhitespace c) = true := by simp [hblank]
          rw [feed, if_neg (ne_semicolon_of_blank hblank), if_neg hplain, if_pos hback]
          simp only [hwrite]
          exact feed_gap_clean handle hclean hmore rest s

-- The characters of a token are written as they are, by whatever takes them one by one.
theorem Reads.token {β : Type} {size : Nat} {contents token : CString}
    (run : CString → Buffer → β) (h : Reads size buffer contents)
    (hplain : ∀ c ∈ token, isWhitespace c = false ∧ c ≠ ';' ∧ c ≠ nul)
    (hfits : contents.length + token.length ≤ size)
    (hrun : ∀ c more buffer next, isWhitespace c = false → c ≠ ';' →
      writeToBuffer buffer c = some next → run (c :: more) buffer = run more next) :
    ∃ after, Reads size after (contents ++ token) ∧ run token buffer = run [] after := by
  induction token generalizing buffer contents with
  | nil => exact ⟨buffer, by rwa [List.append_nil], rfl⟩
  | cons c token ih =>
      rw [List.length_cons] at hfits
      obtain ⟨hblank, hend, _⟩ := hplain c List.mem_cons_self
      obtain ⟨next, hwrite, hnext⟩ := h.write c (by omega)
      obtain ⟨after, hafter, hmore⟩ := ih hnext
        (fun c hmem => hplain c (List.mem_cons_of_mem _ hmem))
        (by rw [List.length_append, List.length_singleton]; omega)
      rw [List.append_assoc, List.singleton_append] at hafter
      exact ⟨after, hafter, (hrun c token buffer next hblank hend hwrite).trans hmore⟩

theorem feed_token (handle : Handler σ) {size : Nat} {contents token : CString}
    (h : Reads size buffer contents)
    (hplain : ∀ c ∈ token, isWhitespace c = false ∧ c ≠ ';' ∧ c ≠ nul)
    (hfits : contents.length + token.length ≤ size) (rest : List Symbol) (s : Session σ) :
    ∃ after, Reads size after (contents ++ token) ∧
      feed handle (token.map some ++ rest) buffer s = feed handle rest after s := by
  refine h.token (fun token buffer => feed handle (token.map some ++ rest) buffer s) hplain hfits ?_
  intro c more buffer next hblank hend hwrite
  have hword : (!isWhitespace c) = true := by simp [hblank]
  rw [List.map_cons, List.cons_append, feed, if_neg hend, if_pos hword]
  simp only [hwrite]

theorem Reads.clean {size : Nat} (command : List CString) (h : Reads size buffer (encode command)) :
    peekBufferBack buffer = nul := by
  cases List.eq_nil_or_concat command with
  | inl hnil =>
      apply Buffer.peekBufferBack_empty
      rw [h.contents_eq, hnil, encode_nil]
  | inr hconcat =>
      obtain ⟨front, token, rfl⟩ := hconcat
      apply Buffer.peekBufferBack_append (encode front ++ token)
      rw [h.contents_eq, List.concat_eq_append, encode_concat]

-- A semicolon behind the last token, or behind the blank that has ended it: the null
-- character that it writes there is one more, if there is room for it.
theorem feed_semicolon (handle : Handler σ) {size : Nat} {command : List CString} {tail : CString}
    (htokens : ∀ token ∈ command, IsToken token) (hsize : size ≠ 0)
    (htail : tail = [] ∨ tail = [nul])
    (h : Reads size ((writeToBuffer buffer nul).getD buffer) (encode command ++ tail))
    (rest : List Symbol) (s : Session σ) :
    ∃ after, Reads size after [] ∧ feed handle (some ';' :: rest) buffer s =
      match s.command handle command with
      | (true, s) => s
      | (false, s) => feed handle rest after s := by
  refine ⟨_, h.resetSeek, ?_⟩
  have hread : tokens ((writeToBuffer buffer nul).getD buffer) = command :=
    tokens_encode htokens htail (by rw [h.size_eq]; exact hsize) h.rseek h.contents_eq
  rw [feed, if_pos rfl]
  simp only [hread]

theorem feed_command (handle : Handler σ) {size : Nat} (before : List CString)
    {command : List CString} {stream : List Symbol}
    (hwritten : Written command stream) (h : Reads size buffer (encode before))
    (htokens : ∀ token ∈ before ++ command, IsToken token)
    (hfits : (encode (before ++ command)).length ≤ size) (rest : List Symbol) (s : Session σ) :
    ∃ after, Reads size after [] ∧ feed handle (stream ++ rest) buffer s =
      match s.command handle (before ++ command) with
      | (true, s) => s
      | (false, s) => feed handle rest after s := by
  induction hwritten generalizing buffer before with
  | @last token gap hgap =>
      have htoken := htokens token (by simp)
      have hroom := hfits
      rw [encode_concat, List.length_append, List.length_append, List.length_singleton] at hroom
      obtain ⟨typed, htyped, hfeed⟩ := feed_token handle h htoken.plain (by omega)
        (gap ++ [some ';'] ++ rest) s
      rw [List.append_assoc, List.append_assoc, ← List.append_assoc gap, hfeed]
      by_cases hnone : gap = []
      · subst hnone
        obtain ⟨ended, hwrite, hended⟩ := htyped.write nul
          (by rw [List.length_append]; omega)
        rw [← encode_concat] at hended
        rw [List.nil_append, List.singleton_append]
        exact feed_semicolon handle htokens (by omega) (Or.inl rfl)
          (by rwa [hwrite, Option.getD_some, List.append_nil]) rest s
      · obtain ⟨ended, hended, hblank⟩ :=
          feed_gap_token handle htyped htoken hfits hgap hnone ([some ';'] ++ rest) s
        rw [List.append_assoc, hblank, List.singleton_append]
        by_cases hfull : (encode (before ++ [token])).length < size
        · obtain ⟨extra, hwrite, hextra⟩ := hended.write nul hfull
          exact feed_semicolon handle htokens (by omega) (Or.inr rfl)
            (by rwa [hwrite, Option.getD_some]) rest s
        · have hle : ended.size ≤ ended.wseek := by
            rw [← Buffer.length_contents, hended.contents_eq, hended.size_eq]
            omega
          exact feed_semicolon handle htokens (by omega) (Or.inl rfl)
            (by rwa [Buffer.writeToBuffer_full hle, Option.getD_none, List.append_nil]) rest s
  | @more token others gap stream hgap hne _ ih =>
      have hsplit : before ++ token :: others = before ++ [token] ++ others := by simp
      rw [hsplit] at htokens hfits ⊢
      have htoken := htokens token (by simp)
      have hlength := hfits
      rw [encode_append, List.length_append] at hlength
      have hroom := hlength
      rw [encode_concat, List.length_append, List.length_append, List.length_singleton] at hroom
      obtain ⟨typed, htyped, hfeed⟩ := feed_token handle h htoken.plain (by omega)
        (gap ++ stream ++ rest) s
      obtain ⟨ended, hended, hblank⟩ :=
        feed_gap_token handle htyped htoken (by omega) hgap hne (stream ++ rest) s
      obtain ⟨after, hafter, hrest⟩ := ih (before ++ [token]) hended htokens hfits
      refine ⟨after, hafter, ?_⟩
      rw [List.append_assoc, hfeed, List.append_assoc, hblank]
      exact hrest

-- What stands behind a command does not depend on it: the buffer is read from its start.
theorem feed_commands (handle : Handler σ) {size : Nat} {commands : List (List CString)}
    {stream : List Symbol} (hwritten : WrittenAll commands stream) (h : Reads size buffer [])
    (htokens : ∀ command ∈ commands, ∀ token ∈ command, IsToken token)
    (hfits : ∀ command ∈ commands, (encode command).length ≤ size) (s : Session σ) :
    feed handle stream buffer s = Session.run handle commands s := by
  induction hwritten generalizing buffer s with
  | @done gap hgap =>
      have hclean : peekBufferBack buffer = nul := h.clean []
      have hfeed := feed_gap_clean handle hclean hgap [] s
      rw [List.append_nil] at hfeed
      exact hfeed
  | @command gap stream streams command rest hgap hcommand _ ih =>
      have hclean : peekBufferBack buffer = nul := h.clean []
      obtain ⟨after, hafter, hfeed⟩ := feed_command handle [] hcommand h
        (htokens command List.mem_cons_self) (hfits command List.mem_cons_self)
        streams s
      rw [feed_gap_clean handle hclean hgap, hfeed, List.nil_append, Session.run]
      rcases s.command handle command with ⟨_ | _, t⟩
      · exact ih hafter (fun command hmem => htokens command (List.mem_cons_of_mem _ hmem))
          (fun command hmem => hfits command (List.mem_cons_of_mem _ hmem)) t
      · rfl

theorem Session.run_delivered (handle : Handler σ) {commands : List (List CString)}
    (hexit : ∀ command ∈ commands, matchCommand command.head? ≠ .EXIT)
    (halive : ∀ dbg cmnd arguments, (handle dbg cmnd arguments).1 ≠ Errors.DEBUGEE_EXITED.code)
    (s : Session σ) : (Session.run handle commands s).delivered = s.delivered ++ commands := by
  induction commands generalizing s with
  | nil => rw [Session.run, List.append_nil]
  | cons command rest ih =>
      have hgoesOn : (s.command handle command).1 = false ∧
          (s.command handle command).2.delivered = s.delivered ++ [command] := by
        unfold Session.command
        simp only [if_neg (hexit command List.mem_cons_self), decide_eq_false_iff_not]
        exact ⟨halive _ _ _, trivial⟩
      rw [Session.run]
      rcases hcommand : s.command handle command with ⟨stop, t⟩
      rw [hcommand] at hgoesOn
      obtain ⟨rfl, hdelivered⟩ := hgoesOn
      have hrest := ih (fun command hmem => hexit command (List.mem_cons_of_mem _ hmem)) t
      rw [hdelivered, List.append_assoc, List.singleton_append] at hrest
      exact hrest

-- What the loops deliver is what was written: the commands in order, each as its tokens,
-- and all of them if none ends the session.
theorem commands_delivered (handle : Handler σ) (malloc : Nat → Char) (dbg : σ)
    {commands : List (List CString)} {lines : List CString}
    (hwritten : WrittenAll commands (symbols lines))
    (htokens : ∀ command ∈ commands, ∀ token ∈ command, IsToken token)
    (hfits : ∀ command ∈ commands,
      (command.map fun token => token.length + 1).sum ≤ CMD_MAX_SIZE) :
    pollLoop handle (newBuffer malloc CMD_MAX_SIZE) ⟨dbg, []⟩ lines
        = Session.run handle commands ⟨dbg, []⟩ ∧
      ((∀ command ∈ commands, matchCommand command.head? ≠ .EXIT) →
        (∀ dbg cmnd arguments, (handle dbg cmnd arguments).1 ≠ Errors.DEBUGEE_EXITED.code) →
        (pollLoop handle (newBuffer malloc CMD_MAX_SIZE) ⟨dbg, []⟩ lines).delivered = commands) := by
  have hnew : Reads CMD_MAX_SIZE (newBuffer malloc CMD_MAX_SIZE) [] := ⟨rfl, rfl, rfl⟩
  have hloop : pollLoop handle (newBuffer malloc CMD_MAX_SIZE) ⟨dbg, []⟩ lines
      = Session.run handle commands ⟨dbg, []⟩ := by
    rw [pollLoop_eq_feed]
    exact feed_commands handle hwritten hnew htokens
      (fun command hmem => by rw [length_encode]; exact hfits command hmem) _
  refine ⟨hloop, fun hexit halive => ?_⟩
  rw [hloop, Session.run_delivered handle hexit halive]
  rfl

instance (token : CString) : Decidable (IsToken token) :=
  decidable_of_iff (token ≠ [] ∧ token.all (fun c => !isWhitespace c && c ≠ ';' && c ≠ nul) = true)
    ⟨fun h => ⟨h.1, fun c hmem => by simpa [and_assoc] using List.all_eq_true.mp h.2 c hmem⟩,
      fun h => ⟨h.ne_nil, List.all_eq_true.mpr fun c hmem => by
        simpa [and_assoc] using h.plain c hmem⟩⟩

-- `step` and its count on two lines, and a command behind the semicolon.
theorem step_next_delivered :
    (pollLoop (fun dbg _ _ => (0, dbg)) (newBuffer (fun _ => 'x') CMD_MAX_SIZE) ⟨(), []⟩
      ["step".toList, " 2;next ;".toList]).delivered
        = [["step".toList, "2".toList], ["next".toList]] := by
  have hblank : IsGap [some ' '] := by
    intro symbol hmem c heq
    cases List.mem_singleton.mp hmem
    cases heq
    rfl
  have hbreak : IsGap [none, some ' '] := by
    intro symbol hmem c heq
    subst heq
    have hc : c = ' ' := by simpa using hmem
    rw [hc]
    rfl
  have hend : IsGap [none] := by
    intro symbol hmem c heq
    cases List.mem_singleton.mp hmem
    cases heq
  have hnone : IsGap [] := fun _ hmem => nomatch hmem
  have hfirst : Written ["step".toList, "2".toList] ("step".toList.map some ++
      ([none, some ' '] ++ ("2".toList.map some ++ ([] ++ [some ';'])))) :=
    .more hbreak (List.cons_ne_nil _ _) (.last hnone)
  have hsecond : Written ["next".toList] ("next".toList.map some ++ ([some ' '] ++ [some ';'])) :=
    .last hblank
  have hlines : symbols ["step".toList, " 2;next ;".toList] =
      [] ++ (("step".toList.map some ++ ([none, some ' '] ++ ("2".toList.map some ++
        ([] ++ [some ';'])))) ++ ([] ++ (("next".toList.map some ++ ([some ' '] ++ [some ';'])) ++
          [none]))) := by
    decide +kernel
  have hwritten : WrittenAll [["step".toList, "2".toList], ["next".toList]]
      (symbols ["step".toList, " 2;next ;".toList]) := by
    rw [hlines]
    exact .command hnone hfirst (.command hnone hsecond (.done hend))
  have halive : (0 : Int) ≠ Errors.DEBUGEE_EXITED.code := by decide
  exact (commands_delivered (fun dbg _ _ => (0, dbg)) (fun _ => 'x') () hwritten (by decide)
    (by decide)).2 (by decide) (fun _ _ _ => halive)

end VDebugger
