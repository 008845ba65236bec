import Shellwright.Execution.Basic
import Shellwright.Severity
/-!
# Reports

What a tool said about a document, once its output has been read.
-/

namespace Shellwright

/-- The tool could not parse the document. -/
structure SyntaxIssue where
  line : Nat
  column : Nat
  message : String
  deriving DecidableEq, Repr

/-- The document differs from its formatted form. -/
structure FormatIssue where
  message : String
  diff : String := ""
  line : Nat := 0
  column : Nat := 0
  length : Nat := 1
  deriving DecidableEq, Repr

/-- One finding of the linter, with the code of its rule. -/
structure LintIssue where
  line : Nat
  column : Nat
  level : LintLevel
  code : String
  message : String
  deriving DecidableEq, Repr

inductive Issue
  | syntaxError (issue : SyntaxIssue)
  | misformat (issue : FormatIssue)
  | lint (issue : LintIssue)
  deriving DecidableEq, Repr

/-- Outcome of one tool invocation: issues, the formatted text, a failed execution, or a failure of
the tool itself. -/
structure Report where
  issues : List Issue := []
  formatted : Option String := none
  executionFailure : Option Failure := none
  failure : Option String := none
  command : Option String := none
  deriving DecidableEq, Repr

namespace Report

def syntaxErrors (r : Report) : List SyntaxIssue :=
  r.issues.filterMap fun
    | .syntaxError issue => some issue
    | _ => none

def formatIssues (r : Report) : List FormatIssue :=
  r.issues.filterMap fun
    | .misformat issue => some issue
    | _ => none

def lintIssues (r : Report) : List LintIssue :=
  r.issues.filterMap fun
    | .lint issue => some issue
    | _ => none

/-- The tool failed or could not parse the document. -/
def isBlocking (r : Report) : Bool :=
  r.executionFailure.isSome || r.failure.isSome || !r.syntaxErrors.isEmpty

/-- The tool was cancelled or ran out of time. -/
def isInconclusive (r : Report) : Bool :=
  r.executionFailure.any Failure.isInconclusive

/-- The text that explains a failed execution or a failure of the tool. -/
def errorMessage (r : Report) : Option String :=
  match r.executionFailure with
  | some failure => some failure.message
  | none => r.failure

end Report

end Shellwright
