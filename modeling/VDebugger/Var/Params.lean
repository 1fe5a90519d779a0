import VDebugger.Handlers.Mappings
import VDebugger.Machine.Output
import VDebugger.Var.Children
import VDebugger.Var.Implicit
import VDebugger.Var.Recursion

namespace VDebugger

open Machine Printing

variable {κ : Type} {env : Env κ} {var : VarEnv κ} {types : TypeEnv} {mode : VAR_OPTIONS}
  {locInfo : LocInfo} {s : Debugger κ}

section Texts

-- `"Printing formal parameter addresses of func: %s\n"`
def paramsHeader (funcName : CString) : CString :=
  "Printing formal parameter addresses of func: ".toList ++ funcName ++ ['\n']

def paramNumber (text : String) (i : Nat) : CString := text.toList ++ Nat.toDigits 10 i

def noNameLine (i : Nat) : CString := paramNumber "Could not fetch a name for  parameter " i ++ ['\n']

def paramNameLine (i : Nat) (fparamName : CString) : CString :=
  paramNumber "Formal parameter " i ++ ": ".toList ++ fparamName ++ ['\n']

def noLocationLine (i : Nat) : CString :=
  paramNumber "Could not fetch the location of parameter " i ++ ['\n']

def addressLine (varAddr : UWORD) : CString :=
  "Evaluated address: ".toList ++ formatHex varAddr ++ ['\n']

def noValueLine (i : Nat) : CString :=
  paramNumber "Could not fetch the value of parameter " i ++ ['\n']

def valueLine (varVal : CString) : CString := "Evaluated value: ".toList ++ varVal ++ ['\n']

end Texts

section Handler

-- The name of parameter `i`, at the top of a pass.
def printParamName (i : Nat) (fparam : Die) : Printing (Debugger κ) Char Unit :=
  match fparam.attrs.name with
  | .error => Action.fail 1
  | .noEntry => write (noNameLine i)
  | .ok fparamName => write (paramNameLine i fparamName)

-- What follows the name. Where the location or the value cannot be had, the pass ends with
-- `continue`.
def printParamValue (env : Env κ) (var : VarEnv κ) (types : TypeEnv) (mode : VAR_OPTIONS)
    (locInfo : LocInfo) (i : Nat) (fparam : Die) : Printing (Debugger κ) Char Unit := do
  match ← quiet (varLocation var locInfo (some fparam) .DW_AT_location).attempt with
  | none => write (noLocationLine i)
  | some varAddr =>
      match mode with
      | .GET_VAR_ADDR_OPTION => write (addressLine varAddr)
      | .GET_VAR_VALUE_OPTION => do
          match ← quiet (sprintVariableDieVal env var types types.fuel (types.typeOffset fparam)
            varAddr).attempt with
          | none => write (noValueLine i)
          | some varVal => write (valueLine varVal)
      | _ => Action.fail 1

-- The loop over the parameters, from the pointer that the call before has left.
def paramLoop (env : Env κ) (var : VarEnv κ) (types : TypeEnv) (mode : VAR_OPTIONS)
    (locInfo : LocInfo) (subProgDie : Die) : Nat → Nat → Option Nat →
      Printing (Debugger κ) Char Unit
  | 0, _, _ => Action.block
  | passes + 1, i, fparam =>
      match getFormalParams subProgDie fparam with
      | none => Action.block
      | some (.noEntry, _) => pure ()
      | some (.error, _) => Action.fail 1
      | some (.ok (), fparam) =>
          match fparam.bind (subProgDie.children[·]?) with
          | none => Action.block
          | some die => do
              printParamName i die
              printParamValue env var types mode locInfo i die
              paramLoop env var types mode locInfo subProgDie passes (i + 1) fparam

def handleParamVar (env : Env κ) (var : VarEnv κ) (types : TypeEnv) (mode : VAR_OPTIONS) :
    Printing (Debugger κ) Char Unit := do
  let (subProgDie, _, locInfo) ← quiet (localScope env var)
  match subProgDie.attrs.name with
  | .noEntry | .error => Action.fail 1
  | .ok funcName => do
      write (paramsHeader funcName)
      paramLoop env var types mode locInfo subProgDie (subProgDie.children.length + 1) 0 none

end Handler

section Report

def paramNameText (i : Nat) : DwRes CString → CString
  | .ok fparamName => paramNameLine i fparamName
  | .noEntry | .error => noNameLine i

-- The report on the parameters, from parameter `i` on.
inductive ParamReport (value : Nat → Die → CString → Prop) :
    Nat → List Die → Outcome Unit → CString → Prop
  | done (i : Nat) : ParamReport value i [] (.ok ()) []
  | entry {i : Nat} {fparam : Die} {more : List Die} {res : Outcome Unit} {line rest : CString}
      (hname : fparam.attrs.name ≠ .error) (hvalue : value i fparam line)
      (hrest : ParamReport value (i + 1) more res rest) :
      ParamReport value i (fparam :: more) res
        (paramNameText i fparam.attrs.name ++ line ++ rest)
  | nameless {i : Nat} {fparam : Die} {more : List Die} (hname : fparam.attrs.name = .error) :
      ParamReport value i (fparam :: more) (.error 1) []
  | pending {i : Nat} {fparam : Die} {more : List Die} (hname : fparam.attrs.name ≠ .error) :
      ParamReport value i (fparam :: more) .pending (paramNameText i fparam.attrs.name)

end Report

section Loop

variable {subProgDie die : Die} {fparam : Option Nat} {rest : List Die}

end Loop

section Whole

variable {value : Nat → Die → CString → Prop} {params : List Die} {res : Outcome Unit}
  {text : CString} {i : Nat}

theorem ParamReport.ok_iff (h : ParamReport value i params res text) (hends : res ≠ .pending) :
    res = .ok () ↔ ∀ fparam ∈ params, fparam.attrs.name ≠ .error := by
  induction h with
  | done i => exact iff_of_true rfl fun _ hmem => nomatch hmem
  | entry hname hvalue hrest ih =>
      rw [ih hends, List.forall_mem_cons]
      exact ⟨fun hall => ⟨hname, hall⟩, And.right⟩
  | nameless hname => exact iff_of_false (fun h => nomatch h) fun h => h _ List.mem_cons_self hname
  | pending hname => exact absurd rfl hends

variable {t : Debugger κ} {die : Die} {pc : UWORD} {funcName : CString}

end Whole

end VDebugger
