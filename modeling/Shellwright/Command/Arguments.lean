import Shellwright.Files.Tree
/-!
# Arguments of the command line

A command comes first, and then its options and files in any order. `--` ends the options, short
options may be written together, and of two values for one option the last counts.
-/

namespace Shellwright.Command

inductive Verb
  | check
  | format
  | plugins
  deriving DecidableEq, Repr

def Verb.ofWord? : String → Option Verb
  | "check" => some .check
  | "format" => some .format
  | "plugins" => some .plugins
  | _ => none

/-- What becomes of formatted text. -/
inductive FormatMode
  | print
  | write
  | check
  deriving DecidableEq, Repr

inductive Action
  | check (files : List String)
  | format (files : List String) (mode : FormatMode)
  | plugins
  deriving DecidableEq, Repr

/-- A command as it was given. -/
structure Request where
  action : Action
  settingsFile : Option String := none
  verbose : Bool := false
  timings : Bool := false
  /-- Signs are put before notices. -/
  signs : Bool := true
  deriving DecidableEq, Repr

/-- Why arguments are refused. -/
inductive UsageError
  | noCommand
  | unknownCommand (word : String)
  | unknownOption (name : String)
  | missingValue (name : String)
  | unwantedValue (name : String)
  | noFiles
  | unwantedFile (path : String)
  | missingFile (path : String)
  | directory (path : String)
  | conflictingModes
  deriving DecidableEq, Repr

def UsageError.message : UsageError → String
  | .noCommand => "a command is missing: check, format or plugins"
  | .unknownCommand word => s!"there is no command {word}"
  | .unknownOption name => s!"there is no option {name}"
  | .missingValue name => s!"option {name} needs a value"
  | .unwantedValue name => s!"option {name} takes no value"
  | .noFiles => "a file is missing"
  | .unwantedFile path => s!"the command takes no files: {path}"
  | .missingFile path => s!"there is no file {path}"
  | .directory path => s!"a file is wanted and not a directory: {path}"
  | .conflictingModes => "--write and --check exclude each other"

/-! ## Options -/

/-- What an option sets. -/
inductive Setting
  | settingsFile (path : String)
  | verbose
  | timings
  | signs (wanted : Bool)
  | write
  | checkOnly
  deriving DecidableEq, Repr

/-- An option that takes a path, or one that stands for itself. -/
inductive OptionKind
  | settingsFile
  | switch (setting : Setting)
  deriving DecidableEq, Repr

def Verb.accepts : Verb → OptionKind → Bool
  | .format, _ => true
  | .plugins, .switch .timings => false
  | _, .switch .write => false
  | _, .switch .checkOnly => false
  | _, _ => true

def longOption? : String → Option OptionKind
  | "--config" => some .settingsFile
  | "--verbose" => some (.switch .verbose)
  | "--timings" => some (.switch .timings)
  | "--emoji" => some (.switch (.signs true))
  | "--no-emoji" => some (.switch (.signs false))
  | "--write" => some (.switch .write)
  | "--check" => some (.switch .checkOnly)
  | _ => none

def shortOption? : Char → Option OptionKind
  | 'c' => some .settingsFile
  | 'v' => some (.switch .verbose)
  | 'w' => some (.switch .write)
  | _ => none

/-- What one argument says. -/
inductive Word
  | file
  /-- Everything that follows is a file. -/
  | separator
  /-- Options, of which the last may wait for its value. -/
  | options (settings : List Setting) (awaitsPath : Bool)
  deriving DecidableEq, Repr

/-- A long option, with its value after an equals sign or in the next argument. -/
def longWord (v : Verb) (arg : String) : Except UsageError Word :=
  let name := arg.toList.takeWhile (· != '=')
  let named := String.ofList name
  match (longOption? named).filter v.accepts, arg.toList.drop name.length with
  | none, _ => .error (.unknownOption named)
  | some .settingsFile, _ :: value => .ok (.options [.settingsFile (String.ofList value)] false)
  | some .settingsFile, [] => .ok (.options [] true)
  | some (.switch _), _ :: _ => .error (.unwantedValue named)
  | some (.switch s), [] => .ok (.options [s] false)

/-- Short options written together; what follows one that takes a value is the value. -/
def shortWord (v : Verb) : List Char → Except UsageError Word
  | [] => .ok (.options [] false)
  | c :: rest =>
    match (shortOption? c).filter v.accepts with
    | none => .error (.unknownOption s!"-{c}")
    | some .settingsFile =>
      if rest.isEmpty then .ok (.options [] true)
      else .ok (.options [.settingsFile (String.ofList rest)] false)
    | some (.switch s) =>
      match shortWord v rest with
      | .ok (.options settings awaitsPath) => .ok (.options (s :: settings) awaitsPath)
      | other => other

/-- A single dash is the name of a file. -/
def word (v : Verb) (arg : String) : Except UsageError Word :=
  match arg.toList with
  | ['-', '-'] => .ok .separator
  | '-' :: '-' :: _ => longWord v arg
  | '-' :: c :: rest => shortWord v (c :: rest)
  | _ => .ok .file

/-- The settings and the files among the arguments of a command. -/
def collect (v : Verb) : List String → Except UsageError (List Setting × List String)
  | [] => .ok ([], [])
  | arg :: rest =>
    match word v arg with
    | .error e => .error e
    | .ok .separator => .ok ([], rest)
    | .ok .file => do
      let (settings, files) ← collect v rest
      return (settings, arg :: files)
    | .ok (.options settings false) => do
      let (more, files) ← collect v rest
      return (settings ++ more, files)
    | .ok (.options settings true) =>
      match rest with
      | [] => .error (.missingValue arg)
      | path :: rest => do
        let (more, files) ← collect v rest
        return (settings ++ .settingsFile path :: more, files)

/-! ## Requests -/

namespace Request

def apply (r : Request) : Setting → Request
  | .settingsFile path => { r with settingsFile := some path }
  | .verbose => { r with verbose := true }
  | .timings => { r with timings := true }
  | .signs wanted => { r with signs := wanted }
  | .write => r
  | .checkOnly => r

end Request

/-- Writing and only checking exclude each other. -/
def formatMode (settings : List Setting) : Except UsageError FormatMode :=
  match settings.contains .write, settings.contains .checkOnly with
  | true, true => .error .conflictingModes
  | true, false => .ok .write
  | false, true => .ok .check
  | false, false => .ok .print

def actionOf (v : Verb) (settings : List Setting) (files : List String) :
    Except UsageError Action :=
  match v, files with
  | .plugins, [] => .ok .plugins
  | .plugins, path :: _ => .error (.unwantedFile path)
  | _, [] => .error .noFiles
  | .check, files => .ok (.check files)
  | .format, files => (formatMode settings).map (.format files)

/-- The command that the first word names, with the arguments that follow. -/
def Request.ofWords : List String → Except UsageError Request
  | [] => .error .noCommand
  | first :: rest =>
    match Verb.ofWord? first with
    | none => .error (.unknownCommand first)
    | some v => do
      let (settings, files) ← collect v rest
      return settings.foldl Request.apply { action := ← actionOf v settings files }

/-- A separator before the command means nothing. -/
def Request.ofArguments : List String → Except UsageError Request
  | "--" :: rest => Request.ofWords rest
  | arguments => Request.ofWords arguments

def Action.files : Action → List String
  | .check files => files
  | .format files _ => files
  | .plugins => []

/-- What is at a path is not a directory; when it is `needed` there is something at it. -/
def checkFile (t : Files.Tree) (needed : Bool) (path : String) : Except UsageError Unit :=
  match t.find path with
  | .ok (_, .directory) => .error (.directory path)
  | .ok _ => .ok ()
  | .error _ => if needed then .error (.missingFile path) else .ok ()

/-- A settings file must not be a directory, and the files of a request have to be there. -/
def Request.verify (r : Request) (t : Files.Tree) : Except UsageError Request := do
  r.settingsFile.forM (checkFile t false)
  r.action.files.forM (checkFile t true)
  return r

end Shellwright.Command
