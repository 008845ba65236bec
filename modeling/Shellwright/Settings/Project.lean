import Shellwright.Files.Tree
import Shellwright.Keyed
import Shellwright.Settings.Schema
import Shellwright.Toml.Document
/-!
# Settings of a project

Defaults come first, then a section of the project file, then the settings file of the project or the
file that the user named. Each is laid over those before it: where both have a table the tables are
merged, and otherwise the upper layer wins.
-/

namespace Shellwright.Settings

/-! ## Layers -/

mutual

/-- What an upper value leaves of the one below it. -/
def overlay (lower : Option Datum) : Datum → Datum
  | .table upper =>
    match lower with
    | some (.table entries) => .table (overlayEntries entries upper)
    | _ => .table upper
  | d => d

def overlayEntries (lower : List (String × Datum)) :
    List (String × Datum) → List (String × Datum)
  | [] => lower
  | (key, d) :: rest =>
    overlayEntries (Keyed.put lower key (overlay (Keyed.get? lower key) d)) rest

end

/-- Why two values cannot be laid over one another. -/
inductive OverlayError
  | lower (error : Wire.PairError)
  | upperNotTable
  deriving DecidableEq, Repr

/-- One value over another: the lower may be a list of pairs, the upper has to be a table. -/
def overlayData (lower upper : Datum) : Except OverlayError (List (String × Datum)) :=
  match Wire.Entries.ofDatum lower, upper with
  | .error e, _ => .error (.lower e)
  | .ok below, .table above => .ok (overlayEntries below.fields above)
  | .ok _, _ => .error .upperNotTable

/-- Something wrong with the settings. -/
inductive SettingsError
  | unreadable (message : String)
  | invalid (problems : List Wire.Problem)
  | notTable (error : Wire.PairError)
  | unlistable

/-- The count of problems, as shown when settings are refused. -/
def problemCount (n : Nat) : String :=
  let noun := if n = 1 then "error" else "errors"
  s!"{n} validation {noun} for Config"

def readTable (d : Datum) : Except SettingsError Settings :=
  match read d with
  | .ok s => .ok s
  | .error (.invalid ps) => .error (.invalid ps)
  | .error (.notTable e) => .error (.notTable e)
  | .error .unlistable => .error .unlistable

/-- One layer, by its description, with the value that it contributes. -/
structure Layer where
  description : String
  content : Datum

/-- The entries of a layer, which has to be a table. -/
def Layer.entries (l : Layer) : Except SettingsError (List (String × Datum)) :=
  match l.content with
  | .table entries => .ok entries
  | _ => .error (.unreadable s!"{l.description} must be a table")

/-- All layers as one table, the first at the bottom. -/
def mergeLayers (lower : List (String × Datum)) :
    List Layer → Except SettingsError (List (String × Datum))
  | [] => .ok lower
  | l :: rest => do mergeLayers (overlayEntries lower (← l.entries)) rest

def ofLayers (layers : List Layer) : Except SettingsError Settings := do
  readTable (.table (← mergeLayers [] layers))

/-- The defaults as the lowest layer. -/
def defaultLayer : Layer :=
  ⟨"Built-in defaults", toDatum {}⟩

/-! ## Sources of settings -/

open Files

/-- Why the settings of a project cannot be had. -/
inductive ProjectError
  | settings (error : SettingsError)
  | file (error : FileError)
  | tooManyDigits
  | nestedTooDeeply

def projectFileName : String := "pyproject.toml"

def settingsFileName : String := ".shellqa.toml"

/-- A source of settings within a project. -/
inductive Source
  | defaults
  | projectFile (path : String)
  | settingsFile (path : String)
  deriving DecidableEq, Repr

namespace Source

def description : Source → String
  | .defaults => "Built-in defaults"
  | .projectFile path => s!"pyproject.toml ({path})"
  | .settingsFile path => s!"TOML configuration at {path}"

end Source

/-- The table of a TOML file; a file that is not there counts as empty. -/
def readFile (t : Tree) (path : String) : Except ProjectError Datum :=
  match t.askFile path with
  | .error e => .error (.file e)
  | .ok false => .ok (.table [])
  | .ok true =>
    match t.bytes path with
    | .error e => .error (.file e)
    | .ok bytes =>
      match Text.Utf8.decode? bytes with
      | none => .error (.file .undecodable)
      | some text =>
        match Toml.parse text with
        | .ok d => .ok d
        | .error .malformed => .error (.settings (.unreadable s!"Invalid TOML in {path}"))
        | .error .tooManyDigits => .error .tooManyDigits
        | .error .nestedTooDeeply => .error .nestedTooDeeply

/-- The section of a project file that holds the settings. -/
def projectSection (path : String) (d : Datum) : Except ProjectError Datum :=
  match d.get? "tool" with
  | some (.table tools) =>
    match tools.lookup "shellqa" with
    | none => .ok (.table [])
    | some (.table entries) => .ok (.table entries)
    | some _ => .error (.settings (.unreadable s!"[tool.shellqa] in {path} must be a table"))
  | _ => .ok (.table [])

/-- The layer that a source contributes. -/
def Source.load (t : Tree) (s : Source) : Except ProjectError Layer :=
  match s with
  | .defaults => .ok defaultLayer
  | .projectFile path => do return ⟨s.description, ← projectSection path (← readFile t path)⟩
  | .settingsFile path => do return ⟨s.description, ← readFile t path⟩

/-- The sources of the project at `root`, the lowest first. -/
def sourcesOf (t : Tree) (root : String) (named : Option String) :
    Except ProjectError (List Source) := do
  let place ← (t.resolve root).mapError .file
  let within (name : String) := ((Path.ofString place).join (Path.ofString name)).text
  let settingsFile ← match named with
    | none => pure (within settingsFileName)
    | some path =>
      let path := (Path.ofString path).text
      if ← (t.askFile path).mapError .file then pure path
      else .error (.settings (.unreadable s!"Configuration file not found: {path}"))
  let projectFile := within projectFileName
  let hasProjectFile ← (t.askFile projectFile).mapError .file
  return [.defaults] ++ (if hasProjectFile then [.projectFile projectFile] else []) ++
    [.settingsFile settingsFile]

/-- The layers are read from the lowest up; the first that fails ends the reading. -/
def ofSources (t : Tree) (sources : List Source) : Except ProjectError Settings := do
  let layers ← sources.mapM (Source.load t)
  match ofLayers layers with
  | .ok s => return s
  | .error e => .error (.settings e)

/-- The file of a source. -/
def Source.path? : Source → Option String
  | .defaults => none
  | .projectFile path => some path
  | .settingsFile path => some path

/-- The files that were read before the reading ended, in order; one that is not there is not read. -/
def filesRead (t : Tree) : List Source → List String
  | [] => []
  | s :: rest =>
    let following := if (s.load t).isOk then filesRead t rest else []
    match s.path? with
    | none => following
    | some path => if t.isFile path && (readFile t path).isOk then path :: following else following

end Shellwright.Settings
