import Shellwright.Diagnostic.Verdict
import Shellwright.Wire.Decode
/-!
# Records

How executions, reports, diagnostics and verdicts are read from data. Fields that a record does not
know are passed over.
-/

namespace Shellwright.Wire

open Schema

def positionRecord : Schema Position := record fun fields =>
  ((fields.required "line" (nat 0 false)).both (fields.required "character" (nat 0 false))).map
    fun (line, character) => ⟨line, character⟩

def spanRecord : Schema Span := record fun fields =>
  ((fields.required "start" positionRecord).both (fields.required "end" positionRecord)).map
    fun (start, stop) => ⟨start, stop⟩

def cancelledFields (fields : Fields) : Checked Failure :=
  ((fields.literal "kind" "cancelled").both (fields.required "message" text)).map
    fun (_, message) => .cancelled message

def timeoutFields (fields : Fields) : Checked Failure :=
  ((fields.literal "kind" "timeout").both
    ((fields.required "message" text).both (fields.required "timeout_ms" int))).map
    fun (_, message, limit) => .timeout message limit

def spawnFields (fields : Fields) : Checked Failure :=
  ((fields.literal "kind" "spawn_failure").both
    ((fields.required "message" text).both
      ((fields.withDefault "code" (optional text) none).both
        (fields.withDefault "reason" (member SpawnReason.ofLabel?) .other)))).map
    fun (_, message, code, reason) => .spawn message code reason

def failureRecord : Schema Failure := tagged fun
  | "cancelled" => some cancelledFields
  | "timeout" => some timeoutFields
  | "spawn_failure" => some spawnFields
  | _ => none

def oneEnding : String := "exit_code must be set if and only if error is absent"

/-- Exactly one of an exit status and a failure is given. -/
def endingOf : Option Int → Option Failure → Checked Ending
  | some status, none => .valid (.exited status)
  | none, some failure => .valid (.failed failure)
  | _, _ => .fail (.rule oneEnding)

def executionRecord : Schema Execution := record fun fields =>
  ((fields.required "command" text).both
    ((fields.withDefault "exit_code" (optional int) none).both
      ((fields.withDefault "stdout" text "").both
        ((fields.withDefault "stderr" text "").both
          (fields.withDefault "error" (optional failureRecord) none))))).andThen
    fun (command, status, stdout, stderr, failure) =>
      (endingOf status failure).map fun ending => ⟨command, ending, stdout, stderr⟩

def syntaxIssueFields (fields : Fields) : Checked SyntaxIssue :=
  ((fields.literal "kind" "syntax").both
    ((fields.required "line" (nat 0 false)).both
      ((fields.required "column" (nat 0 false)).both (fields.required "message" text)))).map
    fun (_, line, column, message) => ⟨line, column, message⟩

def formatIssueFields (fields : Fields) : Checked FormatIssue :=
  ((fields.literal "kind" "format").both
    ((fields.required "message" text).both
      ((fields.withDefault "diff" text "").both
        ((fields.withDefault "line" (nat 0 false) 0).both
          ((fields.withDefault "column" (nat 0 false) 0).both
            (fields.withDefault "range_length" (nat 0 false) 1)))))).map
    fun (_, message, diff, line, column, length) => ⟨message, diff, line, column, length⟩

def lintIssueFields (fields : Fields) : Checked LintIssue :=
  ((fields.literal "kind" "linter").both
    ((fields.required "line" (nat 0 false)).both
      ((fields.required "column" (nat 0 false)).both
        ((fields.required "severity" (member LintLevel.ofLabel?)).both
          ((fields.required "code" text).both (fields.required "message" text)))))).map
    fun (_, line, column, level, code, message) => ⟨line, column, level, code, message⟩

def issueRecord : Schema Issue := tagged fun
  | "syntax" => some fun fields => (syntaxIssueFields fields).map .syntaxError
  | "format" => some fun fields => (formatIssueFields fields).map .misformat
  | "linter" => some fun fields => (lintIssueFields fields).map .lint
  | _ => none

def reportRecord : Schema Report := record fun fields =>
  ((fields.withDefault "issues" (list issueRecord) []).both
    ((fields.withDefault "formatted_content" (optional text) none).both
      ((fields.withDefault "execution_error" (optional failureRecord) none).both
        ((fields.withDefault "failure" (optional text) none).both
          (fields.withDefault "command" (optional text) none))))).map
    fun (issues, formatted, executionFailure, failure, command) =>
      ⟨issues, formatted, executionFailure, failure, command⟩

def diagnosticRecord : Schema Diagnostic := record fun fields =>
  ((fields.required "range" spanRecord).both
    ((fields.required "message" text).both
      ((fields.required "severity" (member Severity.ofLabel?)).both
        ((fields.withDefault "code" (optional text) none).both
          (fields.required "source" text))))).map
    fun (range, message, severity, code, source) => ⟨range, message, severity, code, source⟩

def editRecord : Schema TextEdit := record fun fields =>
  ((fields.required "range" spanRecord).both (fields.required "new_text" text)).map
    fun (range, newText) => ⟨range, newText⟩

def verdictFields (fields : Fields) : Checked Verdict :=
  ((fields.withDefault "has_errors" bool false).both
    ((fields.withDefault "diagnostics" (list diagnosticRecord) []).both
      ((fields.withDefault "error_message" (optional text) none).both
        (fields.withDefault "inconclusive" bool false)))).map
    fun (hasErrors, diagnostics, errorMessage, inconclusive) =>
      ⟨hasErrors, diagnostics, errorMessage, inconclusive⟩

def verdictRecord : Schema Verdict := record verdictFields

def formatVerdictRecord : Schema FormatVerdict := record fun fields =>
  ((verdictFields fields).both (fields.withDefault "text_edits" (list editRecord) [])).map
    fun (verdict, edits) => { toVerdict := verdict, edits := edits }

end Shellwright.Wire
