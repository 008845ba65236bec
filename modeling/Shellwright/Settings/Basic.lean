import Shellwright.Severity
import Shellwright.Wire.Datum
/-!
# Settings

What the user can choose for the formatter, the linter and the diagnosis of documents.
-/

namespace Shellwright

/-- Time after which a tool is stopped unless the settings say otherwise, in milliseconds. -/
def defaultTimeout : Nat := 30000

/-- Name under which the formatter is registered. -/
def formatterName : String := "shfmt"

/-- Name under which the linter is registered. -/
def linterName : String := "shellcheck"

/-- Indentation: a width, the formatter's own default, or the width that the editor uses. -/
inductive TabSize
  | width (n : Nat)
  | ignore
  | editor
  deriving DecidableEq, Repr

/-- How a failure of a tool is shown. -/
inductive OnError
  | showProblem
  | ignore
  deriving DecidableEq, Repr

namespace OnError

def label : OnError → String
  | .showProblem => "show_problem"
  | .ignore => "ignore"

def ofLabel? : String → Option OnError
  | "show_problem" => some .showProblem
  | "ignore" => some .ignore
  | _ => none

end OnError

structure FormatterSettings where
  enabled : Bool := true
  path : String := "shfmt"
  tabSize : TabSize := .editor
  binaryNextLine : Bool := true
  caseIndent : Bool := true
  spaceRedirects : Bool := true
  deriving DecidableEq, Repr

structure LinterSettings where
  enabled : Bool := true
  path : String := "shellcheck"
  exclude : List String := []
  severity : Option LintLevel := none
  shell : Option String := none
  deriving DecidableEq, Repr

structure DiagnosisSettings where
  debounce : Nat := 300
  timeout : Nat := defaultTimeout
  onError : OnError := .showProblem
  onChange : Bool := true
  deriving DecidableEq, Repr

structure Settings where
  formatter : FormatterSettings := {}
  linter : LinterSettings := {}
  diagnosis : DiagnosisSettings := {}
  editorTabSize : Nat := 4
  deriving DecidableEq, Repr

namespace Settings

/-- The width of an indent; `none` leaves the choice to the formatter and zero stands for tabs. -/
def effectiveIndent (s : Settings) : Option Nat :=
  match s.formatter.tabSize with
  | .ignore => none
  | .editor => some s.editorTabSize
  | .width n => some n

/-- Names of the enabled tools, the formatter first. -/
def enabledTools (s : Settings) : List String :=
  (if s.formatter.enabled then [formatterName] else []) ++
    (if s.linter.enabled then [linterName] else [])

/-- Going from `s` to `t` requires the plugins to be built anew. -/
def affectsPlugins (s t : Settings) : Bool :=
  s.formatter != t.formatter || s.linter != t.linter || s.effectiveIndent != t.effectiveIndent ||
    s.diagnosis.timeout != t.diagnosis.timeout

/-- Enabled tools whose own settings changed; they are tried again even when they were inactive. -/
def retriedTools (s t : Settings) : List String :=
  ((if s.formatter != t.formatter || s.effectiveIndent != t.effectiveIndent then [formatterName]
    else []) ++ (if s.linter != t.linter then [linterName] else [])).filter
      fun name => t.enabledTools.contains name

end Settings

end Shellwright
