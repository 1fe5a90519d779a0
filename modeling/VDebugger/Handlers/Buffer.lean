import VDebugger.Handlers.Step
import VDebugger.Repl.Delivered

namespace VDebugger

open Machine HandlerM

variable {κ : Type} {env : Env κ} {s : Debugger κ} {buffer : Buffer}

section Args

-- A token where `next_token` points to it, and `rseek` behind that call.
structure Arg where
  chars : CString
  start : Nat
  behind : Nat
  deriving DecidableEq, Repr

def nextArg (buffer : Buffer) : Option Arg × Buffer :=
  let (token, after) := nextToken buffer
  (token.map fun chars => { chars, start := buffer.rseek, behind := after.rseek }, after)

-- What call number `n` of `next_token` gives.
def nthArg : Nat → Buffer → Option Arg
  | 0, buffer => (nextArg buffer).1
  | n + 1, buffer => nthArg n (nextArg buffer).2

-- `strtoll(arg, &arg, base)`, and `if (arg + 1 < buffer->data + buffer->rseek) return`
def Arg.numeral (base : Nat) (arg : Arg) : Option WORD :=
  let (n, rest) := parseNumber base arg.chars
  let argEnd := arg.start + (arg.chars.length - rest.length)
  if argEnd + 1 < arg.behind then none else some (BitVec.ofInt 64 n)

end Args

section Handlers

def checkNumeral (base : Nat) (arg : Option Arg) (code : Int) : HandlerM κ WORD :=
  match arg with
  | none => OptionT.fail
  | some arg =>
      match arg.numeral base with
      | none => reject code
      | some n => pure n

def registerArgBuffer (env : Env κ) (mode : REGISTER_OPTIONS) (base : Nat) (arg : Option Arg) :
    HandlerM κ Nat :=
  match mode with
  | .REGISTER_ARG_ABBR => abbrToReg (arg.map Arg.chars)
  | .REGISTER_ARG_DWARF => do
      let n ← checkNumeral base arg Errors.INVALID_COMMAND.code
      pure (DWToReg (n.setWidth 32).toInt)
  | _ => do
      let s ← call Action.fetch
      pure ((env.undef s.log.length).toNat % 2 ^ 32)

-- `handle_register` and `handle_step` on the buffer that `match_command` has read the name of
-- the command from.
def handleRegisterBuffer (env : Env κ) (buffer : Buffer) : HandlerM κ Unit := do
  let action := matchRegisterOption ((nthArg 0 buffer).map Arg.chars)
  let mode := matchRegisterOption ((nthArg 1 buffer).map Arg.chars)
  rejectIf (action = .INVALID_REGISTER_OPT ∨ mode = .INVALID_REGISTER_OPT) 1
  let arg := nthArg 2 buffer
  let _ ← call (getRegsStruct env)
  match action with
  | .READ_REGISTER =>
      if mode = .REGISTER_ARG_ALL then rejectIf (arg ≠ none) Errors.INVALID_COMMAND.code
      else do
        rejectIf (arg = none) Errors.INVALID_COMMAND.code
        let reg ← registerArgBuffer env mode 16 arg
        rejectIf (reg = NO_SUCH_REGISTER) 1
        rejectIf (getRegister reg = none) 1
  | .WRITE_REGISTER => do
      rejectIf (arg = none) Errors.INVALID_COMMAND.code
      let reg ← registerArgBuffer env mode 10 arg
      rejectIf (reg = NO_SUCH_REGISTER) 1
      let arg := nthArg 3 buffer
      rejectIf (arg = none) Errors.INVALID_COMMAND.code
      let value ← checkNumeral 10 arg Errors.INVALID_COMMAND.code
      match getRegister reg with
      | none => do
          let _ ← call (getRegsStruct env).attempt
          pure ()
      | some reg => do
          let _ ← call (setRegValue env reg value).attempt
          pure ()
  | _ => reject Errors.INVALID_COMMAND.code

def handleStepBuffer (env : Env κ) (buffer : Buffer) : HandlerM κ Unit := do
  let arg := nthArg 0 buffer
  rejectIf (arg = none) 1
  let times ← checkNumeral 10 arg 1
  call (handleStepTimes env times)

end Handlers

section Refinement

-- The digits of a number stand in front of what is left.
theorem withoutPrefix_suffix (base : Nat) (chars : CString) : withoutPrefix base chars <:+ chars := by
  unfold withoutPrefix
  split
  · split
    · exact (List.suffix_cons ..).trans (List.suffix_cons ..)
    · exact List.suffix_refl _
  · exact List.suffix_refl _

theorem signOf_suffix (chars : CString) : (signOf chars).2 <:+ chars := by
  have hspace : chars.dropWhile isSpace <:+ chars := List.dropWhile_suffix _
  unfold signOf
  split
  · next rest heq => exact (List.suffix_cons ..).trans (heq ▸ hspace)
  · next rest heq => exact (List.suffix_cons ..).trans (heq ▸ hspace)
  · exact hspace

theorem parseNumber_suffix (base : Nat) (chars : CString) :
    (parseNumber base chars).2 <:+ chars := by
  rw [parseNumber_eq]
  unfold parseDigits
  split
  · exact List.suffix_refl _
  · next n rest heq =>
      dsimp only at heq
      split at heq
      · cases heq
      · cases heq
        exact ((List.dropWhile_suffix _).trans (withoutPrefix_suffix base _)).trans
          (signOf_suffix chars)

theorem Arg.numeral_accepts {base : Nat} {arg : Arg} :
    (∃ n, arg.numeral base = some n) ↔
      arg.behind ≤ arg.start + (arg.chars.length - (parseNumber base arg.chars).2.length) + 1 := by
  unfold Arg.numeral
  rcases parseNumber base arg.chars with ⟨n, rest⟩
  simp only
  split
  · next hlt =>
      refine iff_of_false ?_ (Nat.not_le.mpr hlt)
      rintro ⟨_, hn⟩
      cases hn
  · next hle => exact iff_of_true ⟨_, rfl⟩ (Nat.not_lt.mp hle)

-- Behind a token with its null character the comparison is that with the token's end.
theorem Arg.numeral_of_ended {base : Nat} {arg : Arg}
    (h : arg.behind = arg.start + arg.chars.length + 1) :
    arg.numeral base = if (parseNumber base arg.chars).2 = [] then
      some (BitVec.ofInt 64 (parseNumber base arg.chars).1) else none := by
  have hle := (parseNumber_suffix base arg.chars).length_le
  unfold Arg.numeral
  rcases hparse : parseNumber base arg.chars with ⟨n, rest⟩
  rw [hparse] at hle
  simp only at hle ⊢
  by_cases hnil : rest = []
  · subst hnil
    rw [if_pos rfl, if_neg (by rw [h, List.length_nil]; omega)]
  · have hpos := List.length_pos_iff.mpr hnil
    rw [if_neg hnil, if_pos (by omega)]

variable {command : List CString} {token : CString} {tail : CString} {size index : Nat}

theorem nextArg_ended (htoken : IsToken token)
    (h : buffer.contents.drop buffer.rseek = token ++ nul :: tail) :
    nextArg buffer = (some ⟨token, buffer.rseek, buffer.rseek + token.length + 1⟩,
      buffer.seekTo (buffer.rseek + token.length + 1)) := by
  obtain ⟨c, characters, rfl⟩ := List.exists_cons_of_ne_nil htoken.ne_nil
  rw [List.cons_append] at h
  unfold nextArg
  rw [Buffer.nextToken_some htoken.nul_not_mem h]
  rfl

theorem nextArg_cut (htoken : IsToken token) (hfull : buffer.wseek = buffer.size)
    (h : buffer.contents.drop buffer.rseek = token) :
    nextArg buffer = (some ⟨token, buffer.rseek, buffer.size⟩, buffer.seekTo buffer.size) := by
  obtain ⟨c, characters, rfl⟩ := List.exists_cons_of_ne_nil htoken.ne_nil
  unfold nextArg
  rw [Buffer.nextToken_last htoken.nul_not_mem hfull h]
  rfl

-- The tokens that are whole are passed by.
theorem nthArg_behind (hwhole : ∀ token ∈ command, IsToken token) (index : Nat)
    (h : buffer.contents.drop buffer.rseek = encode command ++ tail) :
    nthArg (command.length + index) buffer
      = nthArg index (buffer.seekTo (buffer.rseek + (encode command).length)) := by
  induction command generalizing buffer with
  | nil => rw [List.length_nil, Nat.zero_add]; rfl
  | cons token rest ih =>
      rw [encode_cons, List.append_assoc, List.cons_append] at h
      have hnext := nextArg_ended (hwhole token List.mem_cons_self) h
      have hdrop : (buffer.seekTo (buffer.rseek + token.length + 1)).contents.drop
          (buffer.seekTo (buffer.rseek + token.length + 1)).rseek = encode rest ++ tail := by
        have hbehind := congrArg (List.drop (token.length + 1)) h
        rw [List.drop_drop] at hbehind
        rw [Buffer.rseek_seekTo, Buffer.contents_seekTo, Nat.add_assoc, hbehind]
        simp
      have hseek : buffer.rseek + token.length + 1 + (encode rest).length
          = buffer.rseek + (encode (token :: rest)).length := by
        rw [encode_cons, List.length_append, List.length_cons]
        omega
      have hrest := ih (fun token hmem => hwhole token (List.mem_cons_of_mem _ hmem)) hdrop
      rw [Buffer.rseek_seekTo, hseek] at hrest
      rw [List.length_cons, Nat.add_right_comm, nthArg, hnext]
      exact hrest

-- A token that has its null character, wherever it stands.
theorem nthArg_ended (hwhole : ∀ token ∈ command, IsToken token)
    (h : buffer.contents.drop buffer.rseek = encode command ++ tail)
    (htoken : command[index]? = some token) :
    ∃ start, nthArg index buffer = some ⟨token, start, start + token.length + 1⟩ := by
  obtain ⟨hlt, hat⟩ := List.getElem?_eq_some_iff.mp htoken
  have hsplit : command = command.take index ++ token :: command.drop (index + 1) := by
    rw [← hat, ← List.drop_eq_getElem_cons hlt, List.take_append_drop]
  have hlength : (command.take index).length = index := List.length_take_of_le hlt.le
  have hbefore : ∀ token ∈ command.take index, IsToken token :=
    fun token hmem => hwhole token (List.mem_of_mem_take hmem)
  have hdrop : buffer.contents.drop buffer.rseek = encode (command.take index) ++
      (token ++ nul :: (encode (command.drop (index + 1)) ++ tail)) := by
    rw [h]
    conv_lhs => rw [hsplit]
    rw [encode_append, encode_cons, List.append_assoc, List.append_assoc, List.cons_append]
  have hskip := nthArg_behind hbefore 0 hdrop
  rw [hlength, Nat.add_zero] at hskip
  have hhere : (buffer.seekTo (buffer.rseek + (encode (command.take index)).length)).contents.drop
      (buffer.seekTo (buffer.rseek + (encode (command.take index)).length)).rseek
        = token ++ nul :: (encode (command.drop (index + 1)) ++ tail) := by
    rw [Buffer.contents_seekTo, Buffer.rseek_seekTo, ← List.drop_drop, hdrop, List.drop_left]
  refine ⟨buffer.rseek + (encode (command.take index)).length, ?_⟩
  rw [hskip, nthArg, nextArg_ended (hwhole token (List.mem_of_getElem? htoken)) hhere]
  rfl

theorem nextArg_none (h : (nextToken buffer).1 = none) : nextArg buffer = (none, buffer) := by
  have hstays : nextToken buffer = (none, buffer) := by
    unfold nextToken at h ⊢
    split at h
    · next hnul => rw [if_pos hnul]
    · next hnul =>
        rw [if_neg hnul]
        split at h
        · next hend => rw [if_pos hend]
        · cases h
  unfold nextArg
  rw [hstays]
  rfl

theorem nthArg_none (h : (nextToken buffer).1 = none) (index : Nat) :
    nthArg index buffer = none := by
  have hnext := nextArg_none h
  induction index with
  | zero => rw [nthArg, hnext]
  | succ index ih =>
      rw [nthArg, hnext]
      exact ih

namespace HoldsCommand

-- `rseek` stands one past the null character of a token, and where that was not written
-- only at its place.
def behindToken (size : Nat) (command : List CString) (index start length : Nat) : Nat :=
  if index + 1 = command.length ∧ (encode command).length = size + 1 then start + length
  else start + length + 1

-- The last token of a buffer that has no room for its null character.
theorem nextArg_last {last : CString} (hlast : IsToken last)
    (hreads : Reads size buffer (encode command ++ last))
    (hfull : (encode command ++ last).length = size) :
    nextArg (buffer.seekTo (buffer.rseek + (encode command).length))
      = (some ⟨last, buffer.rseek + (encode command).length, buffer.size⟩,
        buffer.seekTo buffer.size) := by
  have hwseek : (buffer.seekTo (buffer.rseek + (encode command).length)).wseek = buffer.size := by
    rw [← Buffer.length_contents, Buffer.contents_seekTo, hreads.contents_eq, hreads.size_eq, hfull]
  apply nextArg_cut hlast hwseek
  rw [Buffer.contents_seekTo, Buffer.rseek_seekTo, ← List.drop_drop, hreads.rseek, List.drop_zero,
    hreads.contents_eq, List.drop_left]

theorem nthArg_eq (h : HoldsCommand size buffer command) (htoken : command[index]? = some token) :
    ∃ start, nthArg index buffer
      = some ⟨token, start, behindToken size command index start token.length⟩ := by
  unfold behindToken
  cases h with
  | @ended command tail hwhole htail hreads =>
      have hdrop : buffer.contents.drop buffer.rseek = encode command ++ tail := by
        rw [hreads.rseek, List.drop_zero, hreads.contents_eq]
      have hle := buffer.wseek_le
      rw [← Buffer.length_contents, hreads.contents_eq, hreads.size_eq, List.length_append] at hle
      obtain ⟨start, hstart⟩ := nthArg_ended hwhole hdrop htoken
      refine ⟨start, ?_⟩
      rw [if_neg (by omega)]
      exact hstart
  | @cut command last hwhole hlast hreads hfull =>
      have hdrop : buffer.contents.drop buffer.rseek = encode command ++ last := by
        rw [hreads.rseek, List.drop_zero, hreads.contents_eq]
      have hlength : (encode (command ++ [last])).length = size + 1 := by
        rw [encode_concat, List.length_append, List.length_singleton, hfull]
      rw [List.length_append, List.length_singleton]
      by_cases hlt : index < command.length
      · rw [List.getElem?_append_left hlt] at htoken
        obtain ⟨start, hstart⟩ := nthArg_ended hwhole hdrop htoken
        refine ⟨start, ?_⟩
        rw [if_neg (by omega)]
        exact hstart
      · have hindex : index = command.length := by
          have hbound := (List.getElem?_eq_some_iff.mp htoken).1
          rw [List.length_append, List.length_singleton] at hbound
          omega
        subst hindex
        rw [List.getElem?_append_right (Nat.le_refl _), Nat.sub_self] at htoken
        have hsame : last = token := Option.some.inj htoken
        subst hsame
        have hskip := nthArg_behind hwhole 0 hdrop
        rw [Nat.add_zero, nthArg, nextArg_last hlast hreads hfull] at hskip
        refine ⟨buffer.rseek + (encode command).length, ?_⟩
        have hend : buffer.size = buffer.rseek + (encode command).length + last.length := by
          rw [hreads.rseek, Nat.zero_add, ← List.length_append, hfull]
          exact hreads.size_eq
        rw [if_pos ⟨rfl, hlength⟩, hskip, hend]

theorem nthArg_end (h : HoldsCommand size buffer command) (hsize : size ≠ 0)
    (hindex : command.length ≤ index) : nthArg index buffer = none := by
  obtain ⟨more, rfl⟩ := Nat.exists_eq_add_of_le hindex
  cases h with
  | @ended command tail hwhole htail hreads =>
      have hdrop : buffer.contents.drop buffer.rseek = encode command ++ tail := by
        rw [hreads.rseek, List.drop_zero, hreads.contents_eq]
      have hbuffer : buffer.size ≠ 0 := by
        rw [hreads.size_eq]
        exact hsize
      rw [nthArg_behind hwhole more hdrop]
      apply nthArg_none
      refine Buffer.nextToken_end (show (buffer.seekTo _).size ≠ 0 from hbuffer) ?_
      rw [Buffer.contents_seekTo, Buffer.rseek_seekTo, ← List.drop_drop, hdrop, List.drop_left]
      exact htail
  | @cut command last hwhole hlast hreads hfull =>
      have hdrop : buffer.contents.drop buffer.rseek = encode command ++ last := by
        rw [hreads.rseek, List.drop_zero, hreads.contents_eq]
      rw [List.length_append, List.length_singleton, Nat.add_assoc, nthArg_behind hwhole _ hdrop,
        Nat.add_comm, nthArg, nextArg_last hlast hreads hfull]
      apply nthArg_none
      have hend : nextToken (buffer.seekTo buffer.size) = (none, buffer.seekTo buffer.size) := by
        unfold nextToken
        exact if_pos buffer.ended
      exact congrArg Prod.fst hend

end HoldsCommand

-- The tokens of the other model, each of them read together with its null character.
structure ReadsTokens (buffer : Buffer) (tokens : List CString) : Prop where
  chars : ∀ index, (nthArg index buffer).map Arg.chars = tokens[index]?
  ended : ∀ index arg, nthArg index buffer = some arg →
    arg.behind = arg.start + arg.chars.length + 1

variable {α β : Type} {tokens : List CString}

theorem run_bind_congr {x y : HandlerM κ α} {f g : α → HandlerM κ β}
    (hx : ∀ s, x.run s = y.run s) (hf : ∀ a s, (f a).run s = (g a).run s) (s : Debugger κ) :
    (x >>= f).run s = (y >>= g).run s := by
  rw [run_bind_apply, run_bind_apply, hx]
  rcases y.run s with ⟨(_ | a) | _ | _, t⟩
  · rfl
  · exact hf a t
  · rfl
  · rfl

theorem rejectIf_congr {c d : Prop} [Decidable c] [Decidable d] (hcd : c ↔ d) (code : Int) :
    (rejectIf c code : HandlerM κ Unit) = rejectIf d code := by
  have hfail : (Action.failIf c code : DebuggerM κ Unit) = Action.failIf d code := by
    funext s
    by_cases hc : c
    · rw [Action.failIf_of hc, Action.failIf_of (hcd.mp hc)]
    · rw [Action.failIf_of_not hc, Action.failIf_of_not (mt hcd.mpr hc)]
  rw [rejectIf, rejectIf, hfail]

theorem run_rejectIf_congr {c d : Prop} [Decidable c] [Decidable d] (hcd : c ↔ d) (code : Int)
    {f g : Unit → HandlerM κ β} (hf : ∀ s, (f ()).run s = (g ()).run s) (s : Debugger κ) :
    (rejectIf c code >>= f).run s = (rejectIf d code >>= g).run s := by
  rw [rejectIf_congr hcd]
  exact run_bind_congr (fun _ => rfl) (fun _ s => hf s) s

theorem ReadsTokens.numeral (h : ReadsTokens buffer tokens) (base index : Nat) (code : Int)
    (f : WORD → HandlerM κ α) (s : Debugger κ) :
    (checkNumeral base (nthArg index buffer) code >>= f).run s =
      (strtoll base tokens[index]? >>= fun number =>
        rejectIf (number.2 ≠ []) code >>= fun _ => f number.1).run s := by
  rw [← h.chars]
  cases harg : nthArg index buffer with
  | none => rfl
  | some arg =>
      have hnumeral : arg.numeral base = _ := Arg.numeral_of_ended (h.ended index arg harg)
      rw [Option.map_some, run_strtoll]
      unfold checkNumeral
      simp only [hnumeral]
      by_cases hrest : (parseNumber base arg.chars).2 = []
      · rw [if_pos hrest, run_rejectIf_of_not (not_not_intro hrest)]
        rfl
      · rw [if_neg hrest, run_rejectIf_of hrest]
        rfl

theorem ReadsTokens.none_iff (h : ReadsTokens buffer tokens) (index : Nat) :
    nthArg index buffer = none ↔ tokens[index]? = none := by
  rw [← h.chars, Option.map_eq_none_iff]

-- Where every token has its null character, the handlers are those that see the tokens alone.
theorem handleStepBuffer_run (h : ReadsTokens buffer tokens) (s : Debugger κ) :
    (handleStepBuffer env buffer).run s = (handleStep env tokens).run s := by
  unfold handleStepBuffer handleStep
  apply run_rejectIf_congr (h.none_iff 0)
  intro s
  exact h.numeral 10 0 1 _ s

theorem registerArgBuffer_run (h : ReadsTokens buffer tokens) (mode : REGISTER_OPTIONS)
    (base index : Nat) (s : Debugger κ) :
    (registerArgBuffer env mode base (nthArg index buffer)).run s
      = (registerArg env mode base tokens[index]?).run s := by
  cases mode
  case REGISTER_ARG_ABBR =>
    unfold registerArgBuffer registerArg
    rw [h.chars]
  case REGISTER_ARG_DWARF => exact h.numeral base index _ _ s
  all_goals rfl

theorem handleRegisterBuffer_run (h : ReadsTokens buffer tokens) (s : Debugger κ) :
    (handleRegisterBuffer env buffer).run s = (handleRegister env tokens).run s := by
  unfold handleRegisterBuffer handleRegister
  apply run_rejectIf_congr (by rw [h.chars, h.chars])
  intro s
  apply run_bind_congr fun _ => rfl
  intro _ s
  simp only [h.chars]
  cases matchRegisterOption tokens[0]?
  case READ_REGISTER =>
    dsimp only
    by_cases hall : matchRegisterOption tokens[1]? = .REGISTER_ARG_ALL
    · rw [if_pos hall, if_pos hall]
      rw [rejectIf_congr (not_congr (h.none_iff 2))]
    · rw [if_neg hall, if_neg hall]
      apply run_rejectIf_congr (h.none_iff 2)
      intro s
      exact run_bind_congr (registerArgBuffer_run h _ 16 2) (fun _ _ => rfl) s
  case WRITE_REGISTER =>
    apply run_rejectIf_congr (h.none_iff 2)
    intro s
    apply run_bind_congr (registerArgBuffer_run h _ 10 2)
    intro reg s
    apply run_rejectIf_congr Iff.rfl
    intro s
    apply run_rejectIf_congr (h.none_iff 3)
    intro s
    exact h.numeral 10 3 _ _ s
  all_goals rfl

-- The buffer behind the name of the command.
theorem HoldsCommand.readsTokens (h : HoldsCommand size buffer command) (hsize : size ≠ 0)
    (hroom : (encode command).length ≠ size + 1) :
    ReadsTokens (nextArg buffer).2 command.tail where
  chars index := by
    have hnext : nthArg index (nextArg buffer).2 = nthArg (index + 1) buffer := rfl
    rw [hnext, List.getElem?_tail]
    cases htoken : command[index + 1]? with
    | none => rw [h.nthArg_end hsize (List.getElem?_eq_none_iff.mp htoken), Option.map_none]
    | some token =>
        obtain ⟨start, hstart⟩ := h.nthArg_eq htoken
        rw [hstart, Option.map_some]
  ended index arg harg := by
    have hnext : nthArg (index + 1) buffer = some arg := harg
    cases htoken : command[index + 1]? with
    | none =>
        rw [h.nthArg_end hsize (List.getElem?_eq_none_iff.mp htoken)] at hnext
        cases hnext
    | some token =>
        obtain ⟨start, hstart⟩ := h.nthArg_eq htoken
        rw [hstart] at hnext
        cases hnext
        exact if_neg fun hcut => hroom hcut.2

end Refinement

end VDebugger
