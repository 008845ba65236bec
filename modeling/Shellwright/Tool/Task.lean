import Shellwright.Execution.Basic
import Shellwright.Execution.Options
import Shellwright.Execution.Supervisor
import Shellwright.Output.Tools
import Shellwright.Severity
import Shellwright.Timing
/-!
# Tasks of a tool

What a tool is used for: to see whether it is there, to check a document or to format one.
-/

/-!
## Command lines of the tools

The formatter reads the text from standard input. Asked to check, it answers with a patch. The linter
writes one finding per line; it reads standard input unless it is given a file.
-/

namespace Shellwright.Tool

open Output (FormatterMode)

/-! ## The formatter -/

/-- Argument that makes a tool read standard input. -/
def standardInput : String := "-"

/-- Arguments that make a tool print its version and exit. -/
def versionArguments : List String := ["--version"]

/-- How long a tool may take to print its version, in milliseconds. -/
def versionTimeout : Int := 5000

/-- Style of the formatted text. Without an indent the formatter's own default holds; an indent of
zero stands for tabs. -/
structure FormatterStyle where
  /-- The width, as it is written. -/
  indent : Option String := none
  binaryNextLine : Bool := true
  caseIndent : Bool := true
  spaceRedirects : Bool := true
  deriving DecidableEq, Repr

def FormatterStyle.arguments (s : FormatterStyle) : List String :=
  (match s.indent with
    | some width => ["-i", width]
    | none => []) ++
  (if s.binaryNextLine then ["-bn"] else []) ++
  (if s.caseIndent then ["-ci"] else []) ++
  (if s.spaceRedirects then ["-sr"] else [])

/-- A formatter by its path. -/
structure Formatter where
  path : String
  style : FormatterStyle := {}
  timeout : Option Execution.Limit
  deriving DecidableEq, Repr

def Formatter.commandLine (f : Formatter) (mode : FormatterMode) : CommandLine :=
  ⟨f.path, f.style.arguments ++ (if mode = .check then ["-d"] else []) ++ [standardInput]⟩

def Formatter.versionCommand (f : Formatter) : CommandLine :=
  ⟨f.path, versionArguments⟩

/-! ## The linter -/

/-- Which findings are reported, and the dialect of the scripts. -/
structure LintFilter where
  exclude : List String := []
  severity : Option LintLevel := none
  shell : Option String := none
  deriving DecidableEq, Repr

def LintFilter.arguments (f : LintFilter) : List String :=
  (if f.exclude.isEmpty then [] else ["--exclude=" ++ ",".intercalate f.exclude]) ++
  (match f.severity with
    | some level => ["--severity=" ++ level.label]
    | none => []) ++
  (match f.shell with
    | some shell => if shell.isEmpty then [] else ["--shell=" ++ shell]
    | none => [])

/-- A linter by its path. -/
structure Linter where
  path : String
  filter : LintFilter := {}
  timeout : Option Execution.Limit
  deriving DecidableEq, Repr

def Linter.commandLine (l : Linter) (file : Option String) : CommandLine :=
  ⟨l.path, ["-f", "gcc"] ++ l.filter.arguments ++ [file.getD standardInput]⟩

def Linter.versionCommand (l : Linter) : CommandLine :=
  ⟨l.path, versionArguments⟩

end Shellwright.Tool

namespace Shellwright

inductive Tool
  | formatter (formatter : Tool.Formatter)
  | linter (linter : Tool.Linter)
  deriving DecidableEq, Repr

namespace Tool

inductive Task
  /-- Print the version, which shows that the tool can run. -/
  | version
  /-- Check a text, or else a file. -/
  | check (text file : Option String)
  /-- Format a text. -/
  | format (text : Option String)
  deriving DecidableEq, Repr

/-- Why a task cannot even be started. -/
inductive TaskError
  | noPath (tool : String)
  | nothingToCheck
  | option (error : Execution.OptionError)
  deriving DecidableEq, Repr

def TaskError.message? : TaskError → Option String
  | .noPath tool => some s!"{tool} command path must not be empty"
  | .nothingToCheck => some "shellcheck needs either content or a file path"
  | .option error => error.message?

def name : Tool → String
  | .formatter _ => formatterName
  | .linter _ => linterName

def path : Tool → String
  | .formatter f => f.path
  | .linter l => l.path

/-- How long the tool may take for a document, unless a call says otherwise. -/
def timeout : Tool → Option Execution.Limit
  | .formatter f => f.timeout
  | .linter l => l.timeout

def commandLine (t : Tool) (task : Task) : CommandLine :=
  match t, task with
  | .formatter f, .version => f.versionCommand
  | .formatter f, .check .. => f.commandLine .check
  | .formatter f, .format _ => f.commandLine .format
  | .linter l, .version => l.versionCommand
  | .linter l, .check text file => l.commandLine (if text.isSome then none else file)
  | .linter l, .format _ => l.commandLine none

def Task.stdin : Task → Option String
  | .version => none
  | .check text _ => text
  | .format text => text

/-- How a task is run. The version is asked for with a limit of its own and cannot be called off. -/
def invocation {τ : Type} (t : Tool) (task : Task) (token : Option τ) (limit : Option Execution.Limit) :
    Except TaskError (Invocation τ) :=
  if t.path.isEmpty then .error (.noPath t.name)
  else if task = .check none none && t.name == linterName then .error .nothingToCheck
  else
    let limit := if task = .version then some (.milliseconds versionTimeout) else limit <|> t.timeout
    match Execution.checkLimit limit with
    | .error e => .error (.option e)
    | .ok timeout => .ok ⟨t.commandLine task, { stdin := task.stdin
                                                token := if task = .version then none else token
                                                timeout := timeout }⟩

/-- The name under which a task is timed. -/
def metric? (t : Tool) (task : Task) : Option Metric :=
  match t, task with
  | _, .version => none
  | .formatter _, .check .. => some .formatterCheck
  | .formatter _, .format _ => some .formatterFormat
  | .linter _, _ => some .linterCheck

/-- What a tool has to say after a task. -/
def report (t : Tool) (task : Task) (e : Execution) : Except Output.OutputError Report :=
  match t, task with
  | .formatter _, .format _ => Output.formatterReport .format e
  | .formatter _, _ => Output.formatterReport .check e
  | .linter _, _ => Output.lintReport e

/-- What is logged about an execution of a tool. -/
def remarks (t : Tool) (task : Task) (e : Execution) : List LogRecord :=
  match t, task with
  | _, .version =>
    if e.succeeded then []
    else [⟨.debug, .tool, s!"{t.name} unavailable: {(e.failure?.map Failure.message).getD e.stderr}"⟩]
  | .formatter _, .format _ =>
    match Output.formatterRemark .format e with
    | some remark => [⟨.debug, .formatterOutput, s!"shfmt succeeded with stderr output: {remark}"⟩]
    | none => []
  | _, _ => []

end Tool

end Shellwright
