import Shellwright.Text.Blank
import Shellwright.Text.Lower
/-!
# Severities

How serious a diagnostic is, and the finer scale on which the linter reports.
-/

namespace Shellwright

/-- Severity of a diagnostic shown to the user. -/
inductive Severity
  | error
  | warning
  | info
  deriving DecidableEq, Repr

namespace Severity

def label : Severity → String
  | .error => "error"
  | .warning => "warning"
  | .info => "info"

def ofLabel? : String → Option Severity
  | "error" => some .error
  | "warning" => some .warning
  | "info" => some .info
  | _ => none

/-- Zero is the most serious. -/
def rank : Severity → Nat
  | .error => 0
  | .warning => 1
  | .info => 2

end Severity

/-- Severity scale of the linter. -/
inductive LintLevel
  | error
  | warning
  | info
  | style
  deriving DecidableEq, Repr

namespace LintLevel

def label : LintLevel → String
  | .error => "error"
  | .warning => "warning"
  | .info => "info"
  | .style => "style"

def ofLabel? : String → Option LintLevel
  | "error" => some .error
  | "warning" => some .warning
  | "info" => some .info
  | "style" => some .style
  | _ => none

/-- A style remark is shown as information. -/
def severity : LintLevel → Severity
  | .error => .error
  | .warning => .warning
  | .info => .info
  | .style => .info

/-- A word of the linter's output; a note is information. -/
def ofWord? (word : String) : Option LintLevel :=
  if word = "note" then some .info else ofLabel? word

/-- The level written in an output, in any case and with blanks around it; `fallback` stands for a
missing or unknown word. -/
def ofToken (token : Option String) (fallback : LintLevel) : LintLevel :=
  match token with
  | none => fallback
  | some t => (ofWord? (String.ofList (Text.lower (Text.trim t.toList)))).getD fallback

end LintLevel

end Shellwright
