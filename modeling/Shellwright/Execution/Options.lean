import Shellwright.Settings.Basic
import Shellwright.Wire.Datum
import Shellwright.Wire.Describe
import Shellwright.Wire.Pairs
/-!
# Options of an execution

Options are laid over one another: what a call names wins over what it overrides, and that over its
base. An override can also take an option back. Overrides are checked; of a base only the names and the
time limit are, so that an option of a base may turn out not to fit when the execution starts.
-/

namespace Shellwright.Execution

/-- A time limit as it was given: milliseconds, or a value that is no whole number. -/
inductive Limit
  | milliseconds (n : Int)
  | misfit
  deriving DecidableEq, Repr

/-- The limit that a value stands for; null stands for none. -/
def Limit.ofDatum : Datum → Option Limit
  | .null => none
  | .int n => some (.milliseconds n)
  | _ => some .misfit

/-- What can be chosen for one execution; `τ` are the tokens that cancel it. -/
structure Options (τ : Type) where
  stdin : Option String := none
  /-- What was given as input is no text, and writing it fails. -/
  unwritable : Bool := false
  token : Option τ := none
  timeout : Option Int := some defaultTimeout
  directory : Option String := none
  environment : Option (List (String × String)) := none
  deriving DecidableEq, Repr

/-- A value given for an option, which need not fit it. -/
inductive OptionValue (τ : Type)
  | token (token : τ)
  | path (path : String)
  | data (value : Datum)

/-- Why options are refused. -/
inductive OptionError
  | unknownNames (names : List String)
  /-- A call or a base names something that is no option. -/
  | strangeName
  | stdinNotText
  | notToken
  | notPath
  | notEnvironment
  | environmentNotText
  | timeoutNotInteger
  | timeoutNegative
  deriving DecidableEq, Repr

namespace OptionError

def message? : OptionError → Option String
  | .unknownNames names => some ("Unknown execution option(s): " ++ ", ".intercalate names)
  | .strangeName => none
  | .stdinNotText => some "stdin override must be a string or None"
  | .notToken => some "token override must implement CancellationToken"
  | .notPath => some "cwd override must be a pathlib.Path or None"
  | .notEnvironment => some "env override must be a mapping of strings to strings"
  | .environmentNotText => some "env override must map strings to strings"
  | .timeoutNotInteger => some "timeout_ms must be an integer or None"
  | .timeoutNegative => some "timeout_ms must be non-negative"

/-- The value has the right kind and is out of range. -/
def isRange : OptionError → Bool
  | .timeoutNegative => true
  | _ => false

end OptionError

/-- A limit in milliseconds, which has to be a whole number and not negative. -/
def checkLimit : Option Limit → Except OptionError (Option Int)
  | none => .ok none
  | some .misfit => .error .timeoutNotInteger
  | some (.milliseconds n) => if n < 0 then .error .timeoutNegative else .ok (some n)

/-- The least whole number that is rounded to one beyond all floats. -/
def measureBound : Nat :=
  Nat.pow 2 1024 - Nat.pow 2 970

/-- A clock that counts with floats can measure a limit. -/
def isMeasurable (limit : Int) : Bool :=
  limit.natAbs < measureBound

/-- Values by the names of options. -/
abbrev Overrides (τ : Type) := List (String × OptionValue τ)

def optionNames : List String := ["stdin", "token", "timeout_ms", "cwd", "env"]

namespace OptionValue

variable {τ : Type}

/-- A value counts as given unless it is null. -/
def isGiven : OptionValue τ → Bool
  | .data .null => false
  | _ => true

/-- A text or null. -/
def checkStdin : OptionValue τ → Except OptionError (OptionValue τ)
  | .data .null => .ok (.data .null)
  | .data (.text s) => .ok (.data (.text s))
  | _ => .error .stdinNotText

def checkToken : OptionValue τ → Except OptionError (OptionValue τ)
  | .data .null => .ok (.data .null)
  | .token t => .ok (.token t)
  | _ => .error .notToken

def checkDirectory : OptionValue τ → Except OptionError (OptionValue τ)
  | .data .null => .ok (.data .null)
  | .path p => .ok (.path p)
  | _ => .error .notPath

def isText : Datum → Bool
  | .text _ => true
  | _ => false

def checkEnvironment : OptionValue τ → Except OptionError (OptionValue τ)
  | .data .null => .ok (.data .null)
  | .data (.table entries) =>
    if entries.all (isText ·.2) then .ok (.data (.table entries)) else .error .environmentNotText
  | _ => .error .notEnvironment

def limit : OptionValue τ → Option Limit
  | .data d => Limit.ofDatum d
  | _ => some .misfit

end OptionValue

/-- Options as they were given; only the limit is known to fit. -/
structure Choice (τ : Type) where
  stdin : OptionValue τ := .data .null
  token : OptionValue τ := .data .null
  timeout : Option Int := some defaultTimeout
  directory : OptionValue τ := .data .null
  environment : OptionValue τ := .data .null

/-- Why an execution cannot start with the options that were given. -/
inductive Misfit
  | token
  | environment (error : Wire.PairError)
  deriving DecidableEq, Repr

namespace Choice

variable {τ : Type}

/-- The option of this name: its override, where there is one, or its value in the base. -/
def pick {α : Type} (overrides : Overrides τ) (name : String) (base : α)
    (read : OptionValue τ → Except OptionError α) : Except OptionError α :=
  match overrides.lookup name with
  | some value => read value
  | none => .ok base

def hasOptionName (entry : String × OptionValue τ) : Bool :=
  optionNames.contains entry.1

/-- A base takes its values as they are. -/
def ofValues (values : Overrides τ) : Except OptionError (Choice τ) :=
  if !values.all hasOptionName then .error .strangeName
  else do
    let value (name : String) : OptionValue τ := (values.lookup name).getD (.data .null)
    let timeout ← pick values "timeout_ms" (some (defaultTimeout : Int)) fun v => checkLimit v.limit
    return ⟨value "stdin", value "token", timeout, value "cwd", value "env"⟩

/-- Options with some of them replaced; the first value that does not fit is the error. -/
def override (o : Choice τ) (overrides : Overrides τ) : Except OptionError (Choice τ) :=
  let unknown := (overrides.filter (!hasOptionName ·)).map Prod.fst
  if !unknown.isEmpty then .error (.unknownNames (unknown.mergeSort (· ≤ ·)))
  else do
    let stdin ← pick overrides "stdin" o.stdin OptionValue.checkStdin
    let token ← pick overrides "token" o.token OptionValue.checkToken
    let directory ← pick overrides "cwd" o.directory OptionValue.checkDirectory
    let environment ← pick overrides "env" o.environment OptionValue.checkEnvironment
    let timeout ← pick overrides "timeout_ms" o.timeout fun v => checkLimit v.limit
    return ⟨stdin, token, timeout, directory, environment⟩

/-- The options of a call: what it names, then its overrides, then the base. -/
def resolve (base : Choice τ) (overrides named : Overrides τ) : Except OptionError (Choice τ) :=
  if !named.all hasOptionName then .error .strangeName
  else base.override (named.filter (·.2.isGiven) ++ overrides)

/-- A directory is named by any value. -/
def directoryText : OptionValue τ → Option String
  | .path p => some p
  | .data .null => none
  | .data d => some d.plain
  | .token _ => some ""

/-- The options with which an execution starts. -/
def options (o : Choice τ) : Except Misfit (Options τ) := do
  let token ← match o.token with
    | .token t => pure (some t)
    | .data .null => pure none
    | _ => .error .token
  let environment ← match o.environment with
    | .data .null => pure none
    | .data d =>
      match Wire.Entries.ofDatum d with
      | .ok entries => pure (some (entries.fields.map fun e => (e.1, e.2.plain)))
      | .error e => .error (.environment e)
    | _ => .error (.environment .wrongKind)
  let (stdin, unwritable) := match o.stdin with
    | .data .null => (none, false)
    | .data (.text s) => (some s, false)
    | .data d => (some "", d.truth)
    | _ => (some "", true)
  return ⟨stdin, unwritable, token, o.timeout, directoryText o.directory, environment⟩

end Choice

end Shellwright.Execution
