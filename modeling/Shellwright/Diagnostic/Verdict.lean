import Shellwright.Diagnostic.Basic
/-!
# Verdicts

What a plugin answers to a check or to a request to format.
-/

namespace Shellwright

/-- Diagnostics of one or more plugins. An inconclusive verdict says nothing about the document. -/
structure Verdict where
  hasErrors : Bool := false
  diagnostics : List Diagnostic := []
  errorMessage : Option String := none
  inconclusive : Bool := false
  deriving DecidableEq, Repr

/-- A verdict together with the edits of a formatter. -/
structure FormatVerdict extends Verdict where
  edits : List TextEdit := []
  deriving DecidableEq, Repr

namespace Verdict

/-- The error flag is raised by any diagnostic of severity error. -/
def ofDiagnostics (diagnostics : List Diagnostic) (errorMessage : Option String) : Verdict :=
  ⟨diagnostics.any (·.severity == .error), diagnostics, errorMessage, false⟩

/-- One error on the first line of `text`. -/
def ofError (source message text : String) : Verdict :=
  ofDiagnostics [Diagnostic.failure source message text none] (some message)

/-- The verdict on a report of a check; a failed execution is kept quiet unless `reportFailures`. -/
def ofReport (source : String) (reportFailures : Bool) (r : Report) (text : String) : Verdict :=
  if r.isInconclusive then { inconclusive := true, errorMessage := r.errorMessage }
  else match r.executionFailure, reportFailures with
    | some failure, false => { errorMessage := some failure.message }
    | _, _ => ofDiagnostics (Diagnostic.ofReport source r text) r.errorMessage

/-- Joined by line feeds, `none` when there is nothing to join. -/
def joinMessages (messages : List String) : Option String :=
  let joined := "\n".intercalate messages
  if joined.isEmpty then none else some joined

/-- The messages that say something. -/
def spokenMessages (verdicts : List Verdict) : List String :=
  (verdicts.filterMap (·.errorMessage)).filter (!·.isEmpty)

/-- Several verdicts as one, in the order given. -/
def merge (verdicts : List Verdict) : Verdict :=
  ⟨verdicts.any (·.hasErrors), verdicts.flatMap (·.diagnostics),
    joinMessages (spokenMessages verdicts), verdicts.any (·.inconclusive)⟩

end Verdict

namespace FormatVerdict

def noContent : String := "No formatted content returned"

/-- The verdict on a report of a format run. Syntax errors and failures give diagnostics and no
edits; an unchanged text gives neither. -/
def ofReport (source : String) (reportFailures : Bool) (r : Report) (text : String) :
    FormatVerdict :=
  if r.isInconclusive then { inconclusive := true, errorMessage := r.errorMessage }
  else if r.isBlocking then
    let check := Verdict.ofReport source reportFailures r text
    let message :=
      if r.syntaxErrors.isEmpty then check.errorMessage
      else some (Message.syntaxSummary r.syntaxErrors.length)
    { hasErrors := check.hasErrors, diagnostics := check.diagnostics, errorMessage := message }
  else if r.formatted.isNone then
    { hasErrors := true, diagnostics := [Diagnostic.failure source noContent text none],
      errorMessage := some noContent }
  else { edits := r.edits text }

end FormatVerdict

end Shellwright
