import Shellwright.Settings.Basic
import Shellwright.Text.Blank
import Shellwright.Text.Lines
import Shellwright.Wire.Decode
import Shellwright.Wire.Describe
import Shellwright.Wire.Pairs
/-!
# Reading and writing settings

Settings are read from a table. Unknown keys are refused, and what is written reads back.
-/

/-!
## Rule codes

The rules that the linter is asked to leave out are written `SC2034`, `sc2034` or `2034` and kept as
`SC2034`, each once.
-/

namespace Shellwright.RuleCode

/-- Letters that match an S in either case; the long s is one of them. -/
def isS (c : Char) : Bool :=
  c == 'S' || c == 's' || c.toNat == 0x17F

def isC (c : Char) : Bool :=
  c == 'C' || c == 'c'

/-- The text after an optional SC. -/
def withoutLetters : List Char → List Char
  | s :: c :: rest => if isS s && isC c then rest else s :: c :: rest
  | cs => cs

/-- The code written by a text with blanks around it: four digits after an optional SC. -/
def ofText? (s : String) : Option String :=
  let digits := withoutLetters (Text.trim s.toList)
  if digits.length = 4 && digits.all Text.isDigit then some (String.ofList ('S' :: 'C' :: digits))
  else none

/-- The parts of a text between commas, without the blank ones. -/
def parts (s : String) : List String :=
  ((Text.cutAt ',' s.toList).map String.ofList).filter fun p => !Text.isBlankText p

/-- The entries that a value lists; a value of another kind lists nothing at all. -/
def entries? : Datum → Option (List Datum)
  | .null => some []
  | .text s => some ((parts s).map .text)
  | .list items => some items
  | .table entries => some (entries.map fun e => .text e.1)
  | _ => none

def invalidMessage (d : Datum) : String :=
  "invalid shellcheck rule code: " ++ d.describe

/-- What is said of a value that holds a number with too many digits to be shown. -/
def tooLongMessage : String :=
  "Exceeds the limit (4300 digits) for integer string conversion; " ++
    "use sys.set_int_max_str_digits() to increase the limit"

/-- Add a code that is not there yet. -/
def insert (codes : List String) (code : String) : List String :=
  if codes.contains code then codes else codes ++ [code]

/-- The codes of a list of entries, up to the first entry that is not a code. -/
def collect (codes : List String) : List Datum → Wire.Checked (List String)
  | [] => .valid codes
  | d :: rest =>
    if !d.isShort then .fail (.rule tooLongMessage)
    else match ofText? d.plain with
      | some code => collect (insert codes code) rest
      | none => .fail (.rule (invalidMessage d))

end Shellwright.RuleCode

namespace Shellwright.Settings

open Wire Wire.Schema

/-- Why a value gives no settings: it stands for no table, some values in it are wrong, or the list of
left out rules is a value that cannot be a list at all. -/
inductive ReadError
  | notTable (error : PairError)
  | invalid (problems : List Problem)
  | unlistable

/-- The symbolic indentations. -/
def tabMode? : String → Option TabSize
  | "ignore" => some .ignore
  | "editor" => some .editor
  | _ => none

/-- Problems of a value that is neither a width nor a symbolic indentation. -/
def tabProblems (problems : List Problem) : List Problem :=
  (problems.map fun p => { p with path := "int" :: p.path }) ++
    [⟨["str-enum[TabSizeMode]"], .notMember⟩]

def tabSize : Schema TabSize := fun d =>
  let asWidth : Checked TabSize :=
    match int d with
    | .invalid ps => .invalid (tabProblems ps)
    | .valid n =>
      if n < 0 then .fail (.rule "tab_size must be non-negative") else .valid (.width n.toNat)
  match d with
  | .text s =>
    match tabMode? s with
    | some mode => .valid mode
    | none => asWidth
  | _ => asWidth

/-- A path to an executable, without the blanks around it. -/
def toolPath : Schema String := fun d =>
  (text d).andThen fun s =>
    let path := Text.trimmed s
    if path.isEmpty then .fail (.rule "path must not be empty") else .valid path

def formatterFields : List String :=
  ["enabled", "path", "tab_size", "binary_next_line", "case_indent", "space_redirects"]

def formatterSchema : Schema FormatterSettings := record fun fields =>
  let d : FormatterSettings := {}
  (((fields.withDefault "enabled" bool d.enabled).both
    ((fields.withDefault "path" toolPath d.path).both
      ((fields.withDefault "tab_size" tabSize d.tabSize).both
        ((fields.withDefault "binary_next_line" bool d.binaryNextLine).both
          ((fields.withDefault "case_indent" bool d.caseIndent).both
            (fields.withDefault "space_redirects" bool d.spaceRedirects)))))).both
    (fields.onlyKnown formatterFields)).map
    fun ((enabled, path, tabSize, binaryNextLine, caseIndent, spaceRedirects), _) =>
      ⟨enabled, path, tabSize, binaryNextLine, caseIndent, spaceRedirects⟩

def linterFields : List String :=
  ["enabled", "path", "exclude", "severity", "shell"]

/-- The codes of the rules to leave out; a value that lists nothing has been refused before. -/
def excludeSchema : Schema (List String) := fun d =>
  RuleCode.collect [] ((RuleCode.entries? d).getD [])

def linterSchema : Schema LinterSettings := record fun fields =>
  let d : LinterSettings := {}
  (((fields.withDefault "enabled" bool d.enabled).both
    ((fields.withDefault "path" toolPath d.path).both
      ((fields.withDefault "exclude" excludeSchema d.exclude).both
        ((fields.withDefault "severity" (optional (member LintLevel.ofLabel?)) d.severity).both
          (fields.withDefault "shell" (optional text) d.shell))))).both
    (fields.onlyKnown linterFields)).map
    fun ((enabled, path, exclude, severity, shell), _) => ⟨enabled, path, exclude, severity, shell⟩

def diagnosisFields : List String :=
  ["debounce_ms", "timeout_ms", "on_error", "diagnose_on_change"]

def diagnosisSchema : Schema DiagnosisSettings := record fun fields =>
  let d : DiagnosisSettings := {}
  (((fields.withDefault "debounce_ms" (nat 0 false) d.debounce).both
    ((fields.withDefault "timeout_ms" (nat 1 true) d.timeout).both
      ((fields.withDefault "on_error" (member OnError.ofLabel?) d.onError).both
        (fields.withDefault "diagnose_on_change" bool d.onChange)))).both
    (fields.onlyKnown diagnosisFields)).map
    fun ((debounce, timeout, onError, onChange), _) => ⟨debounce, timeout, onError, onChange⟩

def settingsFields : List String :=
  ["shfmt", "shellcheck", "diagnosis", "editor_tab_size"]

def schema : Schema Settings := record fun fields =>
  let d : Settings := {}
  (((fields.withDefault "shfmt" formatterSchema d.formatter).both
    ((fields.withDefault "shellcheck" linterSchema d.linter).both
      ((fields.withDefault "diagnosis" diagnosisSchema d.diagnosis).both
        (fields.withDefault "editor_tab_size" (nat 1 false) d.editorTabSize)))).both
    (fields.onlyKnown settingsFields)).map
    fun ((formatter, linter, diagnosis, editorTabSize), _) =>
      ⟨formatter, linter, diagnosis, editorTabSize⟩

/-- The value given for the rules to leave out, when there is one. -/
def excludeValue? (fields : Fields) : Option Datum :=
  (fields.lookup "shellcheck").bind fun linter => linter.get? "exclude"

/-- Settings from a table, or from the pairs that stand for one. -/
def read (d : Datum) : Except ReadError Settings :=
  match Entries.ofDatum d with
  | .error e => .error (.notTable e)
  | .ok entries =>
    if (excludeValue? entries.fields).any fun v => (RuleCode.entries? v).isNone then .error .unlistable
    else match (schema (.table entries.fields)).both entries.keyProblems with
      | .valid (s, _) => .ok s
      | .invalid ps => .error (.invalid ps)

def tabDatum : TabSize → Datum
  | .width n => .int n
  | .ignore => .text "ignore"
  | .editor => .text "editor"

/-- Settings as a table with every key. -/
def toDatum (s : Settings) : Datum :=
  .table
    [("shfmt", .table
      [("enabled", .bool s.formatter.enabled), ("path", .text s.formatter.path),
        ("tab_size", tabDatum s.formatter.tabSize),
        ("binary_next_line", .bool s.formatter.binaryNextLine),
        ("case_indent", .bool s.formatter.caseIndent),
        ("space_redirects", .bool s.formatter.spaceRedirects)]),
      ("shellcheck", .table
        [("enabled", .bool s.linter.enabled), ("path", .text s.linter.path),
          ("exclude", .ofList .text s.linter.exclude),
          ("severity", .ofOption (fun l => .text (LintLevel.label l)) s.linter.severity),
          ("shell", .ofText? s.linter.shell)]),
      ("diagnosis", .table
        [("debounce_ms", .int s.diagnosis.debounce), ("timeout_ms", .int s.diagnosis.timeout),
          ("on_error", .text s.diagnosis.onError.label),
          ("diagnose_on_change", .bool s.diagnosis.onChange)]),
      ("editor_tab_size", .int s.editorTabSize)]

end Shellwright.Settings
