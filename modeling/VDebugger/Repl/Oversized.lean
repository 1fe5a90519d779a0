import VDebugger.Repl.Delivered
import Mathlib.Data.List.Induction

namespace VDebugger

variable {σ : Type} {handle : Handler σ} {buffer : Buffer} {size : Nat} {command : List CString}
  {token : CString} {left text : List Symbol}

section Count

-- How many characters the buffer needs for a text, with a null character behind each token,
-- and whether the text ends in a token.
def countSymbol (counted : Nat × Bool) (symbol : Symbol) : Nat × Bool :=
  match symbol with
  | none => (counted.1 + counted.2.toNat, false)
  | some c =>
      if isWhitespace c then (counted.1 + counted.2.toNat, false) else (counted.1 + 1, true)

def counted (text : List Symbol) : Nat × Bool := text.foldl countSymbol (0, false)

def needed (text : List Symbol) : Nat := (counted text).1

-- A character for which there is no room is left out, and so is all that is before it.
def addSymbol (size : Nat) (left : List Symbol) (symbol : Symbol) : List Symbol :=
  if symbol.isSome ∧ size < needed (left ++ [symbol]) then [] else left ++ [symbol]

-- What stands behind the last character that there was no room for.
def leftOver (size : Nat) (text : List Symbol) : List Symbol := text.foldl (addSymbol size) []

theorem counted_append (left : List Symbol) (symbol : Symbol) :
    counted (left ++ [symbol]) = countSymbol (counted left) symbol := by
  simp [counted]

theorem countSymbol_blank {symbol : Symbol} (h : IsBlank symbol) (before : Nat × Bool) :
    countSymbol before symbol = (before.1 + before.2.toNat, false) := by
  cases symbol with
  | none => rfl
  | some c => simp [countSymbol, h c rfl]

theorem countSymbol_plain {c : Char} (h : isWhitespace c = false) (before : Nat × Bool) :
    countSymbol before (some c) = (before.1 + 1, true) := by
  simp [countSymbol, h]

theorem countSymbol_fst_le (before : Nat × Bool) (symbol : Symbol) :
    before.1 ≤ (countSymbol before symbol).1 := by
  by_cases h : IsBlank symbol
  · rw [countSymbol_blank h]
    exact Nat.le_add_right _ _
  · obtain ⟨c, rfl, hplain⟩ := plain_of_not_blank h
    rw [countSymbol_plain hplain]
    exact Nat.le_add_right _ _

-- An open token takes room, and so does every character that is not blank.
theorem counted_open (text : List Symbol) (h : (counted text).2 = true) : needed text ≠ 0 := by
  unfold needed
  induction text using List.reverseRecOn with
  | nil => cases h
  | append_singleton text symbol ih =>
      rw [counted_append] at h ⊢
      by_cases hblank : IsBlank symbol
      · rw [countSymbol_blank hblank] at h
        cases h
      · obtain ⟨c, rfl, hplain⟩ := plain_of_not_blank hblank
        rw [countSymbol_plain hplain]
        exact Nat.succ_ne_zero _

-- A text that needs no room is blank.
theorem needed_eq_zero_iff (text : List Symbol) : needed text = 0 ↔ IsGap text := by
  induction text using List.reverseRecOn with
  | nil => exact iff_of_true rfl fun _ hmem => by cases hmem
  | append_singleton text symbol ih =>
      have hle := countSymbol_fst_le (counted text) symbol
      rw [← counted_append] at hle
      constructor
      · intro hzero
        have hbefore : needed text = 0 := by
          unfold needed at hzero ⊢
          omega
        intro other hmem
        rcases List.mem_append.mp hmem with hold | hlast
        · exact ih.mp hbefore other hold
        · rw [List.mem_singleton.mp hlast]
          by_contra hblank
          obtain ⟨c, rfl, hplain⟩ := plain_of_not_blank hblank
          rw [needed, counted_append, countSymbol_plain hplain] at hzero
          exact absurd hzero (Nat.succ_ne_zero _)
      · intro hgap
        have hbefore := ih.mpr fun other hmem => hgap other (List.mem_append_left _ hmem)
        have hblank : IsBlank symbol := hgap symbol (by simp)
        have hclosed : (counted text).2 = false := by
          rw [← Bool.not_eq_true]
          exact fun hopen => counted_open text hopen hbefore
        unfold needed at hbefore ⊢
        rw [counted_append, countSymbol_blank hblank, hbefore, hclosed]
        rfl

end Count

-- The room needed for what is left over is what the buffer holds. At the end of a line there
-- may be none for the null character: the text is then one character too long already.
inductive Counted (size : Nat) (left : List Symbol) (command : List CString) (token : CString) :
    Prop where
  | fits (hcount : counted left = ((encode command ++ token).length, decide (token ≠ [])))
  | short (hcount : counted left = (size + 1, false)) (hne : token ≠ [])
      (hfull : (encode command ++ token).length = size)

theorem addSymbol_kept {symbol : Symbol} (h : needed (left ++ [symbol]) ≤ size) :
    addSymbol size left symbol = left ++ [symbol] :=
  if_neg fun hover => absurd hover.2 (Nat.not_lt.mpr h)

theorem addSymbol_end : addSymbol size left none = left ++ [none] :=
  if_neg fun hover => absurd hover.1 (by decide)

theorem addSymbol_over {c : Char} (h : size < needed (left ++ [some c])) :
    addSymbol size left (some c) = [] := if_pos ⟨rfl, h⟩

theorem fills_counted {symbol : Symbol} {command' : List CString} {token' : CString}
    (h : Fills size command token symbol command' token')
    (hle : (encode command ++ token).length ≤ size)
    (hcounted : Counted size left command token) :
    Counted size (addSymbol size left symbol) command' token' := by
  have hnext := counted_append left symbol
  cases h with
  | nothing hblank hnone =>
      subst hnone
      rw [countSymbol_blank hblank] at hnext
      cases hcounted with
      | fits hcount =>
          rw [hcount] at hnext
          rw [addSymbol_kept (by rw [needed, hnext]; exact hle)]
          exact .fits hnext
      | short _ hne => exact absurd rfl hne
  | ends hblank hne hroom =>
      rw [countSymbol_blank hblank] at hnext
      cases hcounted with
      | fits hcount =>
          rw [hcount] at hnext
          simp only [hne, ne_eq, not_false_eq_true, decide_true, Bool.toNat_true] at hnext
          rw [addSymbol_kept (by rw [needed, hnext]; exact hroom)]
          refine .fits (hnext.trans ?_)
          simp [encode_concat, Nat.add_assoc]
      | short _ _ hfull => omega
  | stays hne hfull =>
      rw [countSymbol_blank (fun c heq => by cases heq)] at hnext
      have hsize : (encode command ++ token).length = size := by omega
      rw [addSymbol_end]
      cases hcounted with
      | fits hcount =>
          rw [hcount, hsize] at hnext
          simp only [hne, ne_eq, not_false_eq_true, decide_true, Bool.toNat_true] at hnext
          exact .short hnext hne hsize
      | short hcount =>
          rw [hcount] at hnext
          exact .short hnext hne hsize
  | adds hplain hroom =>
      rw [countSymbol_plain hplain] at hnext
      cases hcounted with
      | fits hcount =>
          rw [hcount] at hnext
          rw [addSymbol_kept (by rw [needed, hnext]; exact hroom)]
          refine .fits (hnext.trans ?_)
          simp [Nat.add_assoc]
      | short _ _ hfull => omega
  | @overflows c hwrites hfull =>
      have hover : size < needed (left ++ [some c]) := by
        rw [needed, hnext]
        by_cases hblank : IsBlank (some c)
        · have hne : token ≠ [] := hwrites.resolve_left (by simp [hblank c rfl])
          rw [countSymbol_blank hblank]
          cases hcounted with
          | fits hcount =>
              simp only [hcount, hne, ne_eq, not_false_eq_true, decide_true, Bool.toNat_true]
              omega
          | short hcount =>
              simp only [hcount, Bool.toNat_false]
              omega
        · obtain ⟨other, heq, hplain⟩ := plain_of_not_blank hblank
          rw [Option.some.inj heq, countSymbol_plain hplain]
          cases hcounted with
          | fits hcount =>
              simp only [hcount]
              omega
          | short hcount =>
              simp only [hcount]
              omega
      rw [addSymbol_over hover]
      exact .fits rfl

-- Over a whole text, symbol by symbol.
theorem text_counted (htext : some ';' ∉ text) (hnul : some nul ∉ text)
    (h : Typed size buffer command token) (hcounted : Counted size left command token) :
    ∃ command' token', Typed size (text.foldl fill buffer) command' token' ∧
      Counted size (text.foldl (addSymbol size) left) command' token' := by
  induction text generalizing buffer command token left with
  | nil => exact ⟨command, token, h, hcounted⟩
  | cons symbol text ih =>
      rw [List.mem_cons, not_or] at htext hnul
      obtain ⟨command', token', hfills, hnext⟩ := h.fill_cases (Ne.symm htext.1) (Ne.symm hnul.1)
      exact ih htext.2 hnul.2 hnext (fills_counted hfills h.length_le hcounted)

theorem Counted.nothing_iff (h : Counted size left command token) (hsize : size ≠ 0) :
    IsGap left ↔ encode command ++ token = [] := by
  rw [← needed_eq_zero_iff, ← List.length_eq_zero_iff, needed]
  cases h with
  | fits hcount => rw [hcount]
  | short hcount _ hfull =>
      rw [hcount, hfull]
      exact iff_of_false (Nat.succ_ne_zero _) hsize

theorem Typed.delivers_nothing_iff (h : Typed size buffer command token) (hsize : size ≠ 0) :
    tokens ((writeToBuffer buffer nul).getD buffer) = [] ↔ encode command ++ token = [] := by
  rw [h.holds.tokens_eq hsize]
  constructor
  · intro hnone
    by_cases hempty : token = []
    · rw [if_pos hempty] at hnone
      rw [hnone, hempty]
      rfl
    · rw [if_neg hempty] at hnone
      exact absurd hnone (by simp)
  · intro hnone
    obtain ⟨hencode, hempty⟩ := List.append_eq_nil_iff.mp hnone
    rw [if_pos hempty]
    cases command with
    | nil => rfl
    | cons first rest =>
        rw [encode_cons] at hencode
        simp at hencode

-- The text is read into a buffer that starts anew: what is executed at the semicolon.
theorem text_delivers_nothing_iff (htext : some ';' ∉ text) (hnul : some nul ∉ text)
    (h : Reads size buffer []) (hsize : size ≠ 0) :
    tokens ((writeToBuffer (text.foldl fill buffer) nul).getD (text.foldl fill buffer)) = [] ↔
      IsGap (leftOver size text) := by
  obtain ⟨command, token, htyped, hcounted⟩ :=
    text_counted htext hnul (.reset h) (show Counted size [] [] [] from .fits rfl)
  rw [htyped.delivers_nothing_iff hsize]
  exact (hcounted.nothing_iff hsize).symm

section Session

variable {after : Buffer} {line rest : CString} {lines : List CString}

theorem Session.command_delivered (handle : Handler σ) (s : Session σ) (command : List CString) :
    (s.command handle command).2.delivered = s.delivered ++ [command] := by
  unfold Session.command
  by_cases hexit : matchCommand command.head? = .EXIT
  · simp only [hexit, if_true]
  · simp only [hexit, if_false]

-- At a semicolon the next command is what the buffer holds.
theorem feed_delivers (handle : Handler σ) {stream : List Symbol}
    (hrest : ∀ (buffer : Buffer) (s : Session σ),
      ∃ more, (feed handle stream buffer s).delivered = s.delivered ++ more)
    (buffer : Buffer) (s : Session σ) :
    ∃ more, (feed handle (some ';' :: stream) buffer s).delivered
      = s.delivered ++ tokens ((writeToBuffer buffer nul).getD buffer) :: more := by
  obtain ⟨command, hcommand⟩ :
      ∃ command, tokens ((writeToBuffer buffer nul).getD buffer) = command := ⟨_, rfl⟩
  have hdelivered := Session.command_delivered handle s command
  rw [feed, if_pos rfl]
  simp only [hcommand]
  rcases hrun : s.command handle command with ⟨_ | _, t⟩ <;> rw [hrun] at hdelivered
  · obtain ⟨more, hmore⟩ := hrest (resetSeek ((writeToBuffer buffer nul).getD buffer)) t
    exact ⟨more, by rw [hmore, hdelivered, List.append_assoc, List.singleton_append]⟩
  · exact ⟨[], hdelivered⟩

theorem feed_appends (handle : Handler σ) (stream : List Symbol) (buffer : Buffer)
    (s : Session σ) :
    ∃ more, (feed handle stream buffer s).delivered = s.delivered ++ more := by
  induction stream generalizing buffer s with
  | nil => exact ⟨[], (List.append_nil _).symm⟩
  | cons symbol stream ih =>
      by_cases hend : symbol = some ';'
      · subst hend
        obtain ⟨more, hmore⟩ := feed_delivers handle ih buffer s
        exact ⟨_, hmore⟩
      · rw [feed_symbol handle hend]
        exact ih _ s

theorem parseInput_size (buffer : Buffer) (line : CString) :
    (parseInput buffer line).2.1.size = buffer.size := by
  have hwrite : ∀ (buffer after : Buffer) (c : Char), writeToBuffer buffer c = some after →
      after.size = buffer.size := by
    intro buffer after c h
    unfold writeToBuffer at h
    split at h
    · cases h
      rfl
    · cases h
  have hgetD : ∀ buffer : Buffer, ((writeToBuffer buffer nul).getD buffer).size = buffer.size := by
    intro buffer
    cases h : writeToBuffer buffer nul with
    | none => rfl
    | some after => exact hwrite buffer after nul h
  fun_induction parseInput buffer line with
  | case1 buffer hback => exact hgetD buffer
  | case2 => rfl
  | case3 buffer => exact hgetD buffer
  | case4 => rfl
  | case5 buffer next line hend hplain after hwritten ih => exact ih.trans (hwrite _ _ _ hwritten)
  | case6 => rfl
  | case7 buffer next line hend hplain hback after hwritten ih =>
      exact ih.trans (hwrite _ _ _ hwritten)
  | case8 buffer next line hend hplain hback ih => exact ih

theorem parseInput_rest (buffer : Buffer) (line : CString) :
    (parseInput buffer line).2.2 <:+ line := by
  fun_induction parseInput buffer line with
  | case1 => exact List.suffix_refl _
  | case2 => exact List.suffix_refl _
  | case3 => exact List.suffix_cons ..
  | case4 => exact List.suffix_cons ..
  | case5 _ _ _ _ _ _ _ ih => exact ih.trans (List.suffix_cons ..)
  | case6 => exact List.suffix_cons ..
  | case7 _ _ _ _ _ _ _ _ ih => exact ih.trans (List.suffix_cons ..)
  | case8 _ _ _ _ _ _ ih => exact ih.trans (List.suffix_cons ..)

-- Behind an overflow the loop goes on with the rest of the line.
theorem pollLoop_overflow (handle : Handler σ) (hparse : parseInput buffer line = (-1, after, rest))
    (s : Session σ) (lines : List CString) :
    pollLoop handle buffer s (line :: lines)
      = feed handle (symbols (rest :: lines)) (resetSeek after) s := by
  have hline : parseLine handle buffer s line = parseLine handle (resetSeek after) s rest := by
    rw [parseLine, hparse]
    simp
  rw [← pollLoop_eq_feed, pollLoop, pollLoop, hline]

-- The next command that the loop executes has nothing of the text up to the next semicolon.
def DropsRest (handle : Handler σ) (buffer : Buffer) (s : Session σ) (lines : List CString) : Prop :=
  ∀ command more, (pollLoop handle buffer s lines).delivered = s.delivered ++ command :: more →
    command = []

-- What stands behind the overflow, up to the semicolon.
def commandRest (stream : List Symbol) : List Symbol := stream.takeWhile (· ≠ some ';')

theorem commandRest_append {text stream : List Symbol} (h : some ';' ∉ text) :
    commandRest (text ++ some ';' :: stream) = text := by
  unfold commandRest
  rw [List.takeWhile_append_of_pos]
  · simp
  · intro symbol hmem
    exact decide_eq_true fun heq => h (by rw [← heq]; exact hmem)

theorem nul_not_mem_symbols (h : ∀ line ∈ lines, nul ∉ line) : some nul ∉ symbols lines := by
  intro hmem
  obtain ⟨line, hline, hsymbol⟩ := List.mem_flatMap.mp hmem
  rcases List.mem_append.mp hsymbol with hchar | hend
  · obtain ⟨c, hc, heq⟩ := List.mem_map.mp hchar
    rw [Option.some.inj heq] at hc
    exact h line hline hc
  · cases List.mem_singleton.mp hend

theorem rest_dropped_iff (handle : Handler σ) (hsize : buffer.size ≠ 0)
    (hlines : ∀ other ∈ line :: lines, nul ∉ other)
    (hparse : parseInput buffer line = (-1, after, rest)) (s : Session σ) :
    DropsRest handle buffer s (line :: lines) ↔
      (some ';' ∈ symbols (rest :: lines) →
        IsGap (leftOver buffer.size (commandRest (symbols (rest :: lines))))) := by
  have hafter : Reads buffer.size (resetSeek after) [] := by
    refine ⟨?_, rfl, Buffer.contents_resetSeek after⟩
    have hkept := parseInput_size buffer line
    rw [hparse] at hkept
    exact hkept
  have hnul : some nul ∉ symbols (rest :: lines) := by
    apply nul_not_mem_symbols
    intro other hmem hnul
    rcases List.mem_cons.mp hmem with rfl | hmem
    · have hsuffix := parseInput_rest buffer line
      rw [hparse] at hsuffix
      exact hlines line List.mem_cons_self (hsuffix.mem hnul)
    · exact hlines other (List.mem_cons_of_mem _ hmem) hnul
  unfold DropsRest
  rw [pollLoop_overflow handle hparse]
  by_cases hend : some ';' ∈ symbols (rest :: lines)
  · obtain ⟨text, stream, hstream, htext⟩ := List.eq_append_cons_of_mem hend
    rw [hstream] at hnul ⊢
    have hclean : some nul ∉ text := fun hmem => hnul (List.mem_append_left _ hmem)
    have hiff := text_delivers_nothing_iff htext hclean hafter hsize
    obtain ⟨more, hmore⟩ := feed_delivers handle (feed_appends handle stream)
      (text.foldl fill (resetSeek after)) s
    rw [feed_text handle htext, hmore, commandRest_append htext, ← hiff]
    constructor
    · intro h _
      exact h _ more rfl
    · intro h command others heq
      have hsame := List.append_cancel_left heq
      rw [← (List.cons.inj hsame).1]
      exact h (List.mem_append_right _ List.mem_cons_self)
  · have hfeed := feed_text handle hend [] (resetSeek after) s
    rw [List.append_nil] at hfeed
    rw [hfeed]
    constructor
    · intro _ hmem
      exact absurd hmem hend
    · intro _ command more hmore
      have hlength := congrArg List.length hmore
      rw [feed, List.length_append, List.length_cons] at hlength
      omega

section Example

-- One character more than there is room for.
def overlong (rest : CString) : CString := List.replicate (CMD_MAX_SIZE + 1) 'a' ++ rest

theorem parseInput_overlong (malloc : Nat → Char) (rest : CString) :
    ∃ after, parseInput (newBuffer malloc CMD_MAX_SIZE) (overlong rest) = (-1, after, rest) := by
  have hnew : Reads CMD_MAX_SIZE (newBuffer malloc CMD_MAX_SIZE) [] := ⟨rfl, rfl, rfl⟩
  have hplain : ∀ c ∈ List.replicate CMD_MAX_SIZE 'a',
      isWhitespace c = false ∧ c ≠ ';' ∧ c ≠ nul := by
    intro c hmem
    rw [List.eq_of_mem_replicate hmem]
    decide
  obtain ⟨after, hafter, hparse⟩ := parseInput_token hnew hplain
    (by rw [List.length_nil, List.length_replicate, Nat.zero_add]) ('a' :: rest)
  have hfull : writeToBuffer after 'a' = none := by
    apply Buffer.writeToBuffer_full
    rw [← Buffer.length_contents, hafter.contents_eq, hafter.size_eq, List.nil_append,
      List.length_replicate]
  refine ⟨after, ?_⟩
  rw [overlong, List.replicate_succ', List.append_assoc, List.singleton_append, hparse, parseInput,
    if_neg (by decide), if_pos (by decide), hfull]

theorem nul_not_mem_overlong {rest : CString} (h : nul ∉ rest) : nul ∉ overlong rest := by
  intro hmem
  rcases List.mem_append.mp hmem with hletter | hrest
  · exact absurd (List.eq_of_mem_replicate hletter) (by decide)
  · exact h hrest

-- Only a blank is left of the command.
theorem blank_rest_dropped :
    DropsRest (fun dbg _ _ => (0, dbg)) (newBuffer (fun _ => 'x') CMD_MAX_SIZE) ⟨(), []⟩
      [overlong " ;".toList] := by
  obtain ⟨after, hparse⟩ := parseInput_overlong (fun _ => 'x') " ;".toList
  have hlines : ∀ other ∈ [overlong " ;".toList], nul ∉ other := by
    intro other hmem
    rw [List.mem_singleton.mp hmem]
    exact nul_not_mem_overlong (by decide)
  refine (rest_dropped_iff _ (by decide) hlines hparse _).mpr fun _ => ?_
  have hleft : leftOver CMD_MAX_SIZE (commandRest (symbols [" ;".toList])) = [some ' '] := by
    decide
  exact hleft ▸ fun symbol hmem c heq => by
    cases List.mem_singleton.mp hmem
    cases heq
    rfl

-- The end of the command is executed as a command of its own.
theorem tail_executed :
    (pollLoop (fun dbg _ _ => (0, dbg)) (newBuffer (fun _ => 'x') CMD_MAX_SIZE) ⟨(), []⟩
        [overlong "next;".toList]).delivered = [["next".toList]] ∧
      ¬DropsRest (fun dbg _ _ => (0, dbg)) (newBuffer (fun _ => 'x') CMD_MAX_SIZE) ⟨(), []⟩
        [overlong "next;".toList] := by
  obtain ⟨after, hparse⟩ := parseInput_overlong (fun _ => 'x') "next;".toList
  have hdelivered : (pollLoop (fun dbg _ _ => (0, dbg)) (newBuffer (fun _ => 'x') CMD_MAX_SIZE)
      ⟨(), []⟩ [overlong "next;".toList]).delivered = [["next".toList]] := by
    have hkept := parseInput_size (newBuffer (fun _ => 'x') CMD_MAX_SIZE) (overlong "next;".toList)
    rw [hparse] at hkept
    have hreads : Reads CMD_MAX_SIZE (resetSeek after) [] :=
      ⟨hkept, rfl, Buffer.contents_resetSeek after⟩
    have hgap : IsGap [] := fun symbol hmem => by cases hmem
    have hend : IsGap [none] := by
      intro symbol hmem c heq
      cases List.mem_singleton.mp hmem
      cases heq
    have hstream : symbols ["next;".toList]
        = [] ++ (("next".toList.map some ++ ([] ++ [some ';'])) ++ [none]) := by decide
    have hwritten : WrittenAll [["next".toList]] (symbols ["next;".toList]) := by
      rw [hstream]
      exact .command hgap (.last hgap) (.done hend)
    rw [pollLoop_overflow _ hparse, feed_commands _ hwritten hreads (by decide) (by decide)]
    rfl
  refine ⟨hdelivered, fun h => ?_⟩
  cases h ["next".toList] [] hdelivered

end Example

end Session

end VDebugger
