import Shellwright.Execution.Basic
import Shellwright.Position
import Shellwright.Report
/-!
# Diagnostics

A report becomes diagnostics in order of precedence: a failure replaces everything else; otherwise
syntax errors come first, then format issues, then the findings of the linter.
-/

/-!
## Messages for the user

How failures are worded, with hints on where to get a missing tool.
-/

namespace Shellwright.Message

/-- Where to get a tool and what it is good for. -/
structure InstallHint where
  displayName : String
  purpose : String
  brew : String
  apt : String
  url : String

def installHint? : String → Option InstallHint
  | "shellcheck" => some
    ⟨"Shellcheck", "shell script analysis", "brew install shellcheck",
      "sudo apt-get install shellcheck", "https://github.com/koalaman/shellcheck"⟩
  | "shfmt" => some
    ⟨"shfmt", "shell script formatting", "brew install shfmt",
      "sudo apt-get install shfmt", "https://github.com/mvdan/sh"⟩
  | _ => none

def formatIssue : String :=
  "Shell script has formatting issues. Format the document with shfmt to fix."

def formatRefused : String :=
  "Formatting skipped: fix the reported errors first."

def notInstalled (tool : String) : String :=
  match installHint? tool with
  | none => s!"{tool} not installed. Install it and make sure it is on PATH."
  | some hint =>
    s!"{hint.displayName} not installed. Install it to enable {hint.purpose}.\n\n" ++
    s!"macOS: {hint.brew}\nLinux: {hint.apt}\nOr visit: {hint.url}"

def permissionDenied (tool : String) : String :=
  s!"Permission denied when running {tool}. Please check file permissions."

/-- The message shown for a failed run of `tool`. -/
def execution (tool : String) : Failure → String
  | .spawn _ _ .notFound => notInstalled tool
  | .spawn _ _ .permissionDenied => permissionDenied tool
  | failure => failure.message

def syntaxSummary (count : Int) : String :=
  let noun := if count = 1 then "error" else "errors"
  s!"Syntax errors prevent formatting: {count} {noun}"

end Shellwright.Message

namespace Shellwright

/-- One remark on a document, attributed to a source. -/
structure Diagnostic where
  range : Span
  message : String
  severity : Severity
  code : Option String := none
  source : String
  deriving DecidableEq, Repr

/-- Replacement of a span by a new text. -/
structure TextEdit where
  range : Span
  newText : String
  deriving DecidableEq, Repr

namespace Diagnostic

def executionErrorCode : String := "execution-error"

def syntaxErrorCode : String := "syntax-error"

def formatIssueCode : String := "format-issue"

/-- An error on the first line; the command that caused it is named below the message. -/
def failure (source message text : String) (command : Option String) : Diagnostic :=
  let message := match command with
    | some c => if c.isEmpty then message else s!"{message}\n\nCommand: {c}"
    | none => message
  ⟨Span.ofLine text 0, message, .error, some executionErrorCode, source⟩

def ofSyntaxIssue (source text : String) (issue : SyntaxIssue) : Diagnostic :=
  ⟨Span.ofLine text issue.line, s!"Syntax error: {issue.message}", .error, some syntaxErrorCode,
    source⟩

def ofFormatIssue (source : String) (issue : FormatIssue) : Diagnostic :=
  ⟨Span.ofCoordinates issue.line issue.column issue.line (issue.column + issue.length),
    Message.formatIssue, .warning, some formatIssueCode, source⟩

def ofLintIssue (source : String) (issue : LintIssue) : Diagnostic :=
  ⟨Span.ofCoordinates issue.line issue.column issue.line (issue.column + 1),
    s!"{issue.code}: {issue.message}", issue.level.severity, some issue.code, source⟩

/-- The diagnostics of a report on `text`. -/
def ofReport (source : String) (r : Report) (text : String) : List Diagnostic :=
  match r.executionFailure, r.failure with
  | some f, _ => [failure source (Message.execution source f) text r.command]
  | none, some message => [failure source message text r.command]
  | none, none =>
    r.syntaxErrors.map (ofSyntaxIssue source text) ++ r.formatIssues.map (ofFormatIssue source) ++
      r.lintIssues.map (ofLintIssue source)

/-- A diagnostic that must stop an automatic format. -/
def isBlocking (d : Diagnostic) : Bool :=
  d.code == some executionErrorCode || d.code == some syntaxErrorCode

end Diagnostic

/-- The edits that turn `text` into the formatter's output: one replacement of the whole document, or
none when there is no output or it is the text itself. -/
def Report.edits (r : Report) (text : String) : List TextEdit :=
  match r.formatted with
  | none => []
  | some formatted =>
    if r.isBlocking || formatted == text then [] else [⟨Span.whole text, formatted⟩]

end Shellwright
