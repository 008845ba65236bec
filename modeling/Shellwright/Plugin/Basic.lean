import Shellwright.Diagnostic.Verdict
import Shellwright.Document
import Shellwright.Timing
import Shellwright.Tool.Task
/-!
# Plugins

A plugin makes one backend available: the formatter, the linter, or one that a third party supplies.
-/

namespace Shellwright

/-- What a plugin works with: a tool, whose failed executions may be kept quiet, or something that
the host knows under a number. -/
inductive Backend
  | tool (tool : Tool) (reportFailures : Bool)
  | external (number : Nat)
  deriving DecidableEq, Repr

/-- Which documents a plugin handles, or the error with which it answers that question. -/
abbrev Support := TextDocument → Except String Bool

/-- Documents tagged as shell scripts, and those with one of the extensions. -/
def supportByExtension (extensions : List String) : Support := fun d =>
  .ok (d.languageId == shellLanguage ||
    extensions.any fun e => e.toList == FileKind.lowerSuffix d.fileName)

/-- Every document. -/
def supportAll : Support := fun _ => .ok true

/-- One plugin. Two plugins of one name are told apart by `id`. -/
structure Plugin where
  id : Nat
  name : String
  displayName : String
  version : String
  /-- The plugin can format documents, and not only check them. -/
  formats : Bool
  supports : Support
  backend : Backend

namespace Plugin

/-- Version of the plugins that come with the library. -/
def ownVersion : String := "0.1.0"

def ofFormatter (id : Nat) (tool : Tool.Formatter) (reportFailures : Bool) : Plugin :=
  ⟨id, "shfmt", "shfmt", ownVersion, true, supportByExtension shellExtensions,
    .tool (.formatter tool) reportFailures⟩

def ofLinter (id : Nat) (tool : Tool.Linter) (reportFailures : Bool) : Plugin :=
  ⟨id, "shellcheck", "ShellCheck", ownVersion, false, supportByExtension shellExtensions,
    .tool (.linter tool) reportFailures⟩

/-- The verdict that stands for a plugin that raised an error. -/
def failure (p : Plugin) (activity text : String) (document : TextDocument) : Verdict :=
  Verdict.ofError p.name s!"{p.displayName} {activity} failed: {text}" document.text

end Plugin

end Shellwright

/-!
## Questions to plugins

What a plugin is asked, what it may answer, and who can call the question off.
-/

namespace Shellwright

/-- A source of cancellation: that of a diagnosis run, or one that the host made. -/
inductive Token
  | run (n : Nat)
  | host (number : Nat)
  deriving DecidableEq, Repr

/-- How long a plugin may take, and what cancels it. -/
structure CallOptions where
  token : Option Token := none
  timeout : Option Execution.Limit := none
  deriving DecidableEq, Repr

/-- Documents are named as in `Buffers`. -/
inductive Question
  | available
  | check (document : String) (options : CallOptions)
  | format (document : String) (options : CallOptions)
  deriving DecidableEq, Repr

/-- The name under which the answer to a question is timed. -/
def Question.metric : Question → Metric
  | .available => .activation
  | .check .. => .check
  | .format .. => .format

inductive Answer
  | available (yes : Bool)
  | checked (verdict : Verdict)
  | formatted (verdict : FormatVerdict)
  | raised (text : String)
  deriving DecidableEq, Repr

end Shellwright

/-!
## Answers of tools

How a plugin that works with a tool comes to its answer: the question becomes a task, and the
execution of the task is read.
-/

namespace Shellwright

/-- The task with which a tool answers a question about a text. -/
def Question.task (text : String) : Question → Tool.Task
  | .available => .version
  | .check .. => .check (some text) none
  | .format .. => .format (some text)

def Question.options : Question → CallOptions
  | .available => {}
  | .check _ options => options
  | .format _ options => options

/-- The document that a question is about; the question of availability is about none. -/
def Question.document? : Question → Option String
  | .available => none
  | .check document _ => some document
  | .format document _ => some document

namespace Plugin

/-- A failed execution that is kept out of the diagnostics is logged instead. -/
def quietRemark (p : Plugin) (reportFailures : Bool) (r : Report) : List LogRecord :=
  match r.executionFailure, reportFailures with
  | some failure, false =>
    if failure.isInconclusive then [] else [⟨.info, .plugin, s!"{p.name}: {failure.message}"⟩]
  | _, _ => []

/-- The answer that the execution of a tool gives to a question about `text`, and what is logged. -/
def answerOf (p : Plugin) (tool : Tool) (reportFailures : Bool) (question : Question) (text : String)
    (e : Execution) : Answer × List LogRecord :=
  let task := question.task text
  let remarks := tool.remarks task e
  match question with
  | .available => (.available e.succeeded, remarks)
  | .check .. =>
    match tool.report task e with
    | .error error => (.raised error.message, remarks)
    | .ok r => (.checked (Verdict.ofReport p.name reportFailures r text),
        remarks ++ p.quietRemark reportFailures r)
  | .format .. =>
    match tool.report task e with
    | .error error => (.raised error.message, remarks)
    | .ok r => (.formatted (FormatVerdict.ofReport p.name reportFailures r text),
        remarks ++ p.quietRemark reportFailures r)

end Plugin

end Shellwright
