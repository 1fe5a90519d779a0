import VDebugger.Handlers.Looks

namespace VDebugger

open Machine HandlerM

variable {κ α β : Type} {env : Env κ}

namespace HandlerM

variable {rel : Debugger κ → Debugger κ → Prop} {x : HandlerM κ α} {f : α → HandlerM κ β}

theorem atomic_call {y : DebuggerM κ α} (h : y.Atomic rel) : (call y).run.Atomic rel := by
  intro s t code hrun
  rw [run_call] at hrun
  rcases hy : y s with ⟨_ | _ | _, u⟩ <;> rw [hy] at hrun <;> cases hrun
  exact h s _ _ hy

theorem atomic_bind (htrans : ∀ s t u, rel s t → rel t u → rel s u) (hx : x.run.Keeps rel)
    (hf : ∀ a, (f a).run.Atomic rel) : (x >>= f).run.Atomic rel :=
  Action.Atomic.bind htrans hx fun found => match found with
    | some a => hf a
    | none => fun _ _ _ h => nomatch h

end HandlerM

theorem looksUp_atomic {x : HandlerM κ α} {f : α → HandlerM κ β}
    (hx : x.run.Keeps LooksUp) (hf : ∀ a, (f a).run.Atomic LooksUp) :
    (x >>= f).run.Atomic LooksUp :=
  atomic_bind LooksUp.trans hx hf

-- The table is written behind the last request, and memory by that request.
theorem handleBreakpointAt_atomic (env : Env κ) (action : BreakpointAction) (a : WORD) :
    (handleBreakpointAt env action a).Atomic LooksUp := by
  intro s t code h
  cases action with
  | ENABLE_BREAKPOINT =>
      rcases handleBreakpointAt_enable_cases env s a with ⟨log, hrun⟩ | ⟨-, log, hrun⟩ <;>
        rw [hrun] at h <;> cases h
      exact ⟨rfl, rfl, rfl, rfl⟩
  | DISABLE_BREAKPOINT =>
      rcases handleBreakpointAt_disable_cases env s a with ⟨log, hrun⟩ | ⟨-, log, hrun⟩ <;>
        rw [hrun] at h <;> cases h
      exact ⟨rfl, rfl, rfl, rfl⟩

theorem handleBreakpoint_atomic (env : Env κ) (tokens : List CString) :
    (handleBreakpoint env tokens).run.Atomic LooksUp := by
  apply looksUp_atomic (rejectIf_keeps LooksUp.refl _ _)
  intro _
  cases tokens[2]? with
  | none => exact Action.Keeps.atomic LooksUp.refl
  | some argToken =>
      apply looksUp_atomic (breakpointArg_keeps (looksUp_kept env) _ argToken tokens)
      intro arg
      apply looksUp_atomic (fetch_keeps LooksUp.refl)
      intro s
      cases matchBreakpointOption tokens[0]?
      case ENABLE_BREAKPOINT => exact atomic_call (handleBreakpointAt_atomic env _ _)
      case DISABLE_BREAKPOINT => exact atomic_call (handleBreakpointAt_atomic env _ _)
      all_goals
        apply Action.Keeps.atomic
        apply (looksUp_kept env).handler (keeps_call fun s => ?_)
        · exact fun found => rejectIf_keeps LooksUp.refl _ _
        · rw [getBreakpointAtAddr_eq]
          exact .refl s

theorem failed_break_atomic {tokens : List CString} {s t : Debugger κ} {code : Int}
    (h : (handleBreakpoint env tokens).run s = (.error code, t)) :
    t.breakpoints = s.breakpoints ∧ t.debugee.mem = s.debugee.mem :=
  have hsame := handleBreakpoint_atomic env tokens s t code h
  ⟨hsame.breakpoints, congrArg Proc.mem hsame.debugee⟩

section Examples

-- `break enable addr 3000`, where the kernel refuses the poke that follows the peek.
theorem refused_break_atomic :
    let env : Env Unit := { nopEnv with fault := fun n => n = 1 }
    let s := atPrompt (fun _ => 0x90) 0x2000
    let run := (handleBreakpoint env ["enable".toList, "addr".toList, "3000".toList]).run s
    run.1 = .error 1 ∧ run.2.breakpoints = s.breakpoints ∧ run.2.debugee.mem = s.debugee.mem := by
  intro env s run
  have herror : run.1 = .error 1 := by decide +kernel
  exact ⟨herror, failed_break_atomic (Prod.ext herror rfl)⟩

end Examples

end VDebugger
