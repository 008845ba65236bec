import Shellwright.Output.Pattern
import Shellwright.Position
import Shellwright.Report
/-!
# Output of the tools

A linter writes its findings one per line; where there are none, the blocks for a terminal are read, in
which a caret under the echoed source marks the column of a note. A formatter writes either the formatted
text or a patch. A syntax error outweighs a patch, since there is no meaningful patch for a script that
could not be parsed.
-/

namespace Shellwright.Output

open Shellwright.Text

/-! ## The linter -/

/-- A number has too many digits to be read from the output, or to be written in a message. -/
inductive OutputError
  | tooManyDigits (count : Nat)
  | statusTooLong
  deriving DecidableEq, Repr

def OutputError.message : OutputError → String
  | .tooManyDigits count =>
    s!"Exceeds the limit ({digitLimit} digits) for integer string conversion: value has {count} " ++
      "digits; use sys.set_int_max_str_digits() to increase the limit"
  | .statusTooLong =>
    s!"Exceeds the limit ({digitLimit} digits) for integer string conversion; " ++
      "use sys.set_int_max_str_digits() to increase the limit"

/-- A coordinate counted from one, as digits. -/
def coordinate (digits : List Char) : Except OutputError Nat :=
  match readDigits digits with
  | some n => .ok (zeroBased n)
  | none => .error (.tooManyDigits digits.length)

def levelOf (word : Option (List Char)) : LintLevel :=
  LintLevel.ofToken (word.map String.ofList) .warning

def FindingLine.issue (f : FindingLine) : Except OutputError LintIssue := do
  return ⟨← coordinate f.line, ← coordinate f.column, levelOf (some f.level), String.ofList f.code,
    String.ofList (trim f.message)⟩

def findings (ls : List (List Char)) : Except OutputError (List LintIssue) :=
  (matching FindingLine.read ls [] true).mapM FindingLine.issue

def NoteLine.issue (n : NoteLine) (line : Nat) : LintIssue :=
  ⟨line, n.indent.length, levelOf n.level, String.ofList n.code, String.ofList (trim n.message)⟩

/-- Notes below a header, `line` being that of the nearest header above; notes without one do not
count. -/
def notes (line : Option Nat) : List (List Char) → Except OutputError (List LintIssue)
  | [] => .ok []
  | raw :: rest =>
    match HeaderLine.read (trim raw) with
    | some header => do notes (some (← coordinate header.line)) rest
    | none =>
      match line, NoteLine.read (trimEnd raw) with
      | some n, some note => do return note.issue n :: (← notes line rest)
      | _, _ => notes line rest

/-- From this exit status on the linter could not run as asked; one stands for findings. -/
def usageFailureStatus : Int := 2

/-- The report on an execution of the linter. -/
def lintReport (e : Execution) : Except OutputError Report :=
  match e.ending with
  | .failed failure => .ok { executionFailure := some failure, command := some e.command }
  | .exited status => do
    let ls := lines e.combinedOutput.toList
    let found ← findings ls
    let issues ← if found.isEmpty then notes none ls else pure found
    let complaint := trimmed e.stderr
    if issues.isEmpty && usageFailureStatus ≤ status && !complaint.isEmpty then
      return { failure := some s!"shellcheck failed: {complaint}", command := some e.command }
    return { issues := issues.map .lint, command := some e.command }

/-! ## The formatter -/

/-- What a formatter was asked for: the formatted text, or whether the text is formatted. -/
inductive FormatterMode
  | format
  | check
  deriving DecidableEq, Repr

def misformatMessage : String := "File is not formatted according to shfmt"

def ErrorLine.issue (l : ErrorLine) : Except OutputError SyntaxIssue := do
  return ⟨← coordinate l.line, ← coordinate l.column, String.ofList (trim l.message)⟩

/-- The first syntax error among the lines of an output. -/
def firstSyntaxError (text : String) : Except OutputError (Option SyntaxIssue) :=
  match matching ErrorLine.read (lines text.toList) [] true with
  | [] => .ok none
  | l :: _ => do return some (← l.issue)

/-- A patch as one issue, placed at its first hunk. -/
def patchIssue (diff : String) : Except OutputError FormatIssue :=
  match matching hunkLine (lines diff.toList) [] true with
  | [] => .ok { message := misformatMessage, diff := diff }
  | digits :: _ => do
    return { message := misformatMessage, diff := diff, line := ← coordinate digits }

/-- An exit status in words, unless it has more digits than `digitLimit`. -/
def statusText (status : Int) : Except OutputError String :=
  if (Nat.toDigits 10 status.natAbs).length ≤ digitLimit then .ok s!"exit status {status}"
  else .error .statusTooLong

/-- What a formatter complained of, or else its exit status. -/
def formatterFailure (e : Execution) (status : Int) : Except OutputError Report := do
  let complaint := trimmed e.stderr
  let detail ← if complaint.isEmpty then statusText status else pure complaint
  return { failure := some s!"shfmt failed: {detail}", command := some e.command }

/-- The report on an execution that did not end with a syntax error. -/
def parsedReport (mode : FormatterMode) (e : Execution) (status : Int) : Except OutputError Report :=
  match mode with
  | .check =>
    if !isBlankText e.stdout then do
      return { issues := [.misformat (← patchIssue e.stdout)], command := some e.command }
    else if e.succeeded then return { command := some e.command }
    else formatterFailure e status
  | .format =>
    if e.succeeded then return { formatted := some e.stdout, command := some e.command }
    else formatterFailure e status

/-- The report on an execution of the formatter. -/
def formatterReport (mode : FormatterMode) (e : Execution) : Except OutputError Report :=
  match e.ending with
  | .failed failure => .ok { executionFailure := some failure, command := some e.command }
  | .exited status => do
    match ← firstSyntaxError e.stderr, e.succeeded with
    | some issue, false => return { issues := [.syntaxError issue], command := some e.command }
    | _, _ => parsedReport mode e status

/-- What a formatter that succeeded wrote on standard error, when it formatted a text. -/
def formatterRemark (mode : FormatterMode) (e : Execution) : Option String :=
  let remark := trimmed e.stderr
  if mode = .format && e.succeeded && !remark.isEmpty then some remark else none

end Shellwright.Output
