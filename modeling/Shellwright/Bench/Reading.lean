import Shellwright.Bench.World
import Shellwright.Plugin.Build
import Shellwright.Text.Title
import Shellwright.Wire.Datum
import Shellwright.Wire.Json
import Shellwright.Wire.Pairs
import Shellwright.Wire.Record
/-!
# Bench scripts as data

How programs, plugins and documents of a bench are written down. What is left out has the usual value.
-/

namespace Shellwright.Bench

/-! ## Pieces -/

/-- Pairs of hexadecimal digits as bytes. -/
def bytesOfHex : List Char → List UInt8
  | a :: b :: rest => UInt8.ofNat (Json.hexValue a * 16 + Json.hexValue b) :: bytesOfHex rest
  | _ => []

/-- Bytes are written as a text or in hexadecimal. -/
def readBytes : Datum → List UInt8
  | .text s => Text.Utf8.encode s
  | d => bytesOfHex (d.textAt "hex").toList

/-- A span of four coordinates, or the problems of the first position that has any. -/
def readSpan (coordinates : List Datum) : Wire.Checked Span :=
  let position (line character : Datum) : Wire.Checked Position :=
    Wire.positionRecord (.table [("line", line), ("character", character)])
  match coordinates with
  | a :: b :: c :: e :: _ =>
    (position a b).andThen fun start => (position c e).map fun stop => ⟨start, stop⟩
  | _ => .valid (Span.ofCoordinates 0 0 0 0)

def readDiagnostic (source : String) (d : Datum) : Wire.Checked Diagnostic :=
  (readSpan (d.listAt "at")).map fun span =>
    ⟨span, d.textAt "message", ((d.textAt? "severity").bind Severity.ofLabel?).getD .warning,
      d.textAt? "code", d.textOr "source" source⟩

/-- Four coordinates and a text. -/
def readEdit (d : Datum) : Wire.Checked TextEdit :=
  (readSpan d.asList).map fun span => ⟨span, (d.asList.getD 4 .null).asText⟩

def hasOnly (names : List String) (settings : Datum) : Bool :=
  settings.asEntries.all fun e => names.contains e.1

/-- A document has an address, and nothing is said that does not belong to a document. -/
def readDocument? (d : Datum) : Option TextDocument :=
  if hasOnly ["uri", "text", "language_id", "file_name", "version"] d then
    (d.get? "uri").map fun uri =>
      TextDocument.create uri.asText (d.textAt "text") (d.textOr "language_id" shellLanguage)
        (d.textAt "file_name") (((d.get? "version").map Datum.asInt).getD 1)
  else none

/-- The addresses of those among documents whose file name is no text. -/
def pathlessDocuments (documents : Datum) : List String :=
  documents.asEntries.filterMap fun e =>
    match e.2.field "file_name" with
    | .text _ => none
    | name => if name.truth then some (e.2.textAt "uri") else none

/-- A quiet time in milliseconds; `usual` when it is left out, and none when it is no whole number. -/
def readQuietTime (d : Datum) (usual : Option Int) : Option Int :=
  match d.get? "debounce_ms" with
  | none => usual
  | some (.int n) => some n
  | some (.bool b) => some (if b then 1 else 0)
  | some (.float x) => Decimal.wholeValue? x
  | some _ => none

/-! ## Programs -/

def readLateOutput (d : Datum) : LateOutput :=
  ⟨(d.asList.headD .null).asNat,
    if (d.asList.getD 1 .null).asText == "stderr" then .stderr else .stdout,
    readBytes (d.asList.getD 2 .null)⟩

def readRule (d : Datum) : Rule where
  arguments := (d.get? "args").map Datum.asTexts
  argument := d.textAt? "has_arg"
  stdin := (d.get? "stdin").map Datum.text?
  stdinPart := d.textAt? "stdin_has"
  stdout := readBytes (d.field "stdout")
  stderr := readBytes (d.field "stderr")
  later := (d.listAt "out").map readLateOutput
  status := (d.field "exit").asInt
  exitDelay := d.natAt "exit_after"
  hangs := d.flagAt "hang"
  keepsStreams := d.flagAt "pipes_open"
  onKill := match d.textAt "on_kill" with
    | "ignore" => .ignores
    | "gone" => .gone
    | _ => .exits (d.natAt "kill_delay")

def readProgram (d : Datum) : Program where
  refusal := (d.field "spawn_error").int?.map fun n =>
    .numbered (some n) (((d.get? "strerror").map Datum.text?).getD (some "strerror"))
  launchDelay := d.natAt "spawn_after"
  spurnsInput := (d.listAt "rules").any fun r => (r.get? "stdin_error").isSome
  rules := (d.listAt "rules").map readRule

def readPrograms (d : Datum) : Keyed String Program :=
  d.asEntries.map fun e => (e.1, readProgram e.2)

/-! ## Tools -/

/-- Why a tool cannot be made from what is written down. -/
inductive ToolError
  | noPath (tool : String)
  | unknownSetting
  | unknownSeverity
  | notTexts
  deriving DecidableEq, Repr

/-- Flags hold by the truth of their values, and any value may stand for the indent. -/
def readStyle (s : Datum) : Except ToolError Tool.FormatterStyle :=
  if !hasOnly ["indent", "binary_next_line", "case_indent", "space_redirects"] s then
    .error .unknownSetting
  else
    let indent := match s.field "indent" with
      | .null => none
      | d => some d.plain
    .ok ⟨indent, s.flagOr "binary_next_line" true, s.flagOr "case_indent" true,
      s.flagOr "space_redirects" true⟩

/-- Texts in a list, or the characters of one text. -/
def readCodes (d : Datum) : Except ToolError (List String) :=
  match Wire.Entries.parts? d with
  | some parts => parts.mapM fun
    | .text s => .ok s
    | _ => .error .notTexts
  | none => .error .notTexts

def readFilter (s : Datum) : Except ToolError Tool.LintFilter := do
  if !hasOnly ["exclude", "severity", "shell"] s then .error .unknownSetting
  let exclude ← match s.get? "exclude" with
    | some codes => readCodes codes
    | none => pure []
  let severity ← match s.field "severity" with
    | .null => pure none
    | d => match LintLevel.ofLabel? d.asText with
      | some level => pure (some level)
      | none => .error .unknownSeverity
  let shell := (s.get? "shell").bind fun d => if d.truth then some d.plain else none
  return ⟨exclude, severity, shell⟩

/-- The path of a tool, which has to be there. -/
def readPath (tool : String) (d : Datum) : Except ToolError String :=
  match d.get? "path" with
  | none => .ok tool
  | some (.text path) => if path.isEmpty then .error (.noPath tool) else .ok path
  | some d => .error (if d.truth then .notTexts else .noPath tool)

/-- A timeout; the usual one when it is left out. -/
def readTimeout (d : Datum) : Option Execution.Limit :=
  match d.get? "timeout_ms" with
  | some limit => Execution.Limit.ofDatum limit
  | none => some (.milliseconds defaultTimeout)

def readFormatter (d : Datum) : Except ToolError Tool.Formatter := do
  let style ← readStyle (d.field "settings")
  return ⟨← readPath formatterName d, style, readTimeout d⟩

def readLinter (d : Datum) : Except ToolError Tool.Linter := do
  let filter ← readFilter (d.field "settings")
  return ⟨← readPath linterName d, filter, readTimeout d⟩

/-- The tool of a name. -/
def readTool (name : String) (d : Datum) : Except ToolError Tool :=
  if name == formatterName then (readFormatter d).map .formatter else (readLinter d).map .linter

/-- A command line, which consists of texts alone. -/
def readCommandLine (d : Datum) : Except ToolError CommandLine := do
  let arguments ← match d.field "args" with
    | .null => pure []
    | items => readCodes items
  match d.field "command" with
  | .text program => return ⟨program, arguments⟩
  | _ => .error .notTexts

/-! ## Plugins -/

def validDiagnostics (source : String) (d : Datum) : List Diagnostic :=
  (d.listAt "diagnostics").filterMap fun x => (readDiagnostic source x).toOption

/-- A remark that repeats the text of the document. -/
def echoOf (source text : String) : Diagnostic :=
  ⟨Span.ofCoordinates 0 0 0 1, text, .warning, none, source⟩

def checkAnswer (name : String) (d : Datum) (text : String) : Answer :=
  match d.textAt? "raise" with
  | some error => .raised error
  | none =>
    let message := d.textAt? "error_message"
    if d.flagAt "inconclusive" then .checked { inconclusive := true, errorMessage := message }
    else .checked (Verdict.ofDiagnostics
      (validDiagnostics name d ++ if d.flagAt "echo" then [echoOf name text] else []) message)

def formatAnswer (name : String) (d : Datum) (text : String) : Answer :=
  match d.textAt? "raise" with
  | some error => .raised error
  | none =>
    let edits := (d.listAt "edits").filterMap fun e => (readEdit e).toOption
    let replacement := (d.textAt? "full").map fun s => (⟨Span.whole text, s⟩ : TextEdit)
    .formatted ⟨⟨d.flagAt "has_errors", validDiagnostics name d, d.textAt? "error_message",
      d.flagAt "inconclusive"⟩, edits ++ replacement.toList⟩

def readScriptRule (answer : Datum → String → Answer) (d : Datum) : ScriptRule :=
  ⟨d.textAt "when", d.natAt "delay", d.flagAt "deaf", answer d⟩

def readScript (d : Datum) : Script :=
  let name := d.textAt "name"
  { available := match d.get? "available" with
      | some (.text error) => .raised error
      | some x => .available x.truth
      | none => .available true
    availableDelay := d.natAt "available_delay"
    check := (d.listAt "check").map (readScriptRule (checkAnswer name))
    format := (d.listAt "format").map (readScriptRule (formatAnswer name)) }

/-- Which documents a scripted plugin handles: those with its extensions, or all when it does not say
what it supports. -/
def readSupport (kind : String) (d : Datum) : Support :=
  if kind.startsWith "bare" then supportAll
  else supportByExtension (match d.get? "extensions" with
    | some (.list es) => es.map Datum.asText
    | _ => shellExtensions)

/-- To look for the extension of a document without a path is an error. -/
def supportWithPath (pathless : List String) (supports : Support) : Support := fun d =>
  if d.languageId != shellLanguage && pathless.contains d.uri then .error "TypeError"
  else supports d

/-- A plugin that works with a tool, or one that is played by the script of this number. -/
def readPlugin (id script : Nat) (d : Datum) : Except ToolError Plugin :=
  let kind := d.textAt "kind"
  let reports := d.flagOr "report" true
  if kind == formatterName then (readFormatter d).map fun f => .ofFormatter id f reports
  else if kind == linterName then (readLinter d).map fun l => .ofLinter id l reports
  else
    let name := d.textAt "name"
    .ok ⟨id, name, d.textOr "display_name" (Text.title name), d.textOr "version" "1.0",
      kind.endsWith "format", readSupport kind d, .external script⟩

/-- Add the plugin that a value describes to the scripts of the bench. -/
def addPlugin (b : Bench) (d : Datum) : Except ToolError (Bench × Plugin) :=
  let number := b.scripts.length
  (readPlugin number number d).map fun p =>
    let supports :=
      if (d.textAt "kind").startsWith "bare" then p.supports
      else supportWithPath b.pathless p.supports
    ({ b with scripts := b.scripts ++ [readScript d] }, { p with supports := supports })

def addPlugins (b : Bench) (ds : List Datum) : Except ToolError (Bench × List Plugin) :=
  ds.foldlM (fun (b, ps) d => (addPlugin b d).map fun (b, p) => (b, ps ++ [p])) (b, [])

/-- An entry point with a factory that makes the plugin of this script, or none, or fails. -/
def readEntryPoint (failure : String → String → LoadFailure) (script : Nat) (d : Datum) :
    EntryPoint :=
  let name := d.textAt "name"
  { name := name
    group := d.textOr "group" pluginGroup
    load := match d.textAt? "load_error" with
      | some kind => .error (failure kind (d.textAt "text"))
      | none => .ok
        { description := s!"<factory {name}>"
          make := fun id _ =>
            match d.textAt? "raise", d.get? "plugin" with
            | some error, _ => .error error
            | none, some p => ((readPlugin id script p).map some).mapError fun _ => ""
            | none, none => .ok none } }

/-- Entry points, with the plugins of their factories among the scripts of the bench. -/
def addEntryPoints (b : Bench) (failure : String → String → LoadFailure) (ds : List Datum) :
    Bench × List EntryPoint :=
  ds.foldl (fun (b, es) d =>
    ({ b with scripts := b.scripts ++ [readScript (d.field "plugin")] },
      es ++ [readEntryPoint failure b.scripts.length d])) (b, [])

end Shellwright.Bench
