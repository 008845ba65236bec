import Shellwright.Command.Arguments
import Shellwright.Command.Session
import Shellwright.Diagnostic.Line
/-!
# The command `format`

Formats shell scripts at the same time. The formatted text is printed or written, or it is only told
which files would change.
-/

namespace Shellwright.Command

/-- What the formatter has made of one script. -/
structure Formatted where
  script : Script
  verdict : FormatVerdict
  deriving DecidableEq, Repr

namespace Formatted

def changes (f : Formatted) : Bool :=
  !f.verdict.edits.isEmpty

/-- There is something to say about the script and no formatted text. -/
def isRefused (f : Formatted) : Bool :=
  !f.changes && !f.verdict.diagnostics.isEmpty

/-- The text after all edits, unless one of them does not replace the whole text. -/
def text? (f : Formatted) : Option String :=
  match f.script.document.applyEdits f.verdict.edits with
  | (true, document) => some document.text
  | (false, _) => none

def text (f : Formatted) : Work String :=
  match f.text? with
  | some text => return text
  | none =>
    throw (.because s!"Formatter returned edits that cannot be applied to {f.script.path}")

/-- The script cannot be formatted, or it would change where that is not wanted. -/
def fails (mode : FormatMode) (f : Formatted) : Bool :=
  f.verdict.inconclusive || f.isRefused || (mode == .check && f.changes)

def refusal (f : Formatted) : String :=
  match f.verdict.errorMessage with
  | some message => if message.isEmpty then Message.formatRefused else message
  | none => Message.formatRefused

def reportRefusal (f : Formatted) : Work Unit := do
  notify .failure s!"{f.script.path}: {f.refusal}"
  f.verdict.diagnostics.forM fun d => printLine (d.line f.script.path)

/-- Hand out the formatted text. -/
def deliver (mode : FormatMode) (f : Formatted) : Work Unit := do
  match mode with
  | .print => print (← f.text)
  | .write =>
    if f.changes then
      let text ← f.text
      modify fun s => { s with files := s.files.writeText f.script.path text }
      notify .success s!"Formatted {f.script.path}"
  | .check => if f.changes then printLine s!"would reformat {f.script.path}"

def report (mode : FormatMode) (f : Formatted) : Work Unit :=
  if f.verdict.inconclusive then
    notify .failure
      s!"{f.script.path}: formatting did not complete ({incompleteness f.verdict.toVerdict})"
  else if f.isRefused then f.reportRefusal
  else f.deliver mode

end Formatted

def formatStatus (mode : FormatMode) (fs : List Formatted) : Nat :=
  if fs.any (Formatted.fails mode) then 1 else 0

def formattedBy : List Script → List Workspace.Reply → List Formatted
  | s :: scripts, .review (.formatted v) :: replies => ⟨s, v⟩ :: formattedBy scripts replies
  | _ :: scripts, _ :: replies => formattedBy scripts replies
  | _, _ => []

/-- Some active plugin can format. -/
def hasFormatter (r : Registry) : Bool :=
  r.activeNames.any fun name => (r.get? name).any Plugin.formats

/-- Format the scripts among files. -/
def format (settings : Settings) (loader : FactoryLoader) (timed : Bool) (mode : FormatMode)
    (files : List String) : Work Nat := do
  if !settings.formatter.enabled then
    throw (.because "The shfmt formatter is disabled in the configuration")
  let scripts ← loadScripts files
  if scripts.isEmpty then
    notify .warning "No shell scripts to format"
    return 0
  let _ ← openWorkspace settings loader timed (scripts.map Script.document)
  if !hasFormatter (← get).bench.workspace.registry then
    let _ ← call .shutdown
    throw (.because "No formatter is available; install shfmt or check its configured path")
  let replies ← callAll (scripts.mapIdx fun i _ => .format (toString i) none)
  let formatted := formattedBy scripts replies
  formatted.forM (Formatted.report mode)
  let status := formatStatus mode formatted
  if mode == .check && status == 0 then
    notify .success s!"{formatted.length} file(s) already formatted"
  if timed then printTimings
  return status

end Shellwright.Command
