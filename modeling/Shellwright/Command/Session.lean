import Shellwright.Bench.Run
import Shellwright.Console.Notice
import Shellwright.Console.Stream
import Shellwright.Console.Table
import Shellwright.Files.Load
import Shellwright.Settings.Project
/-!
# A command under way

What a command has to work with: files, a bench on which plugins run, and two output streams. A command
that cannot go on stops with a status and says why; faults that nobody foresaw are told apart.
-/

namespace Shellwright.Command

open Console

structure Session where
  files : Files.Tree
  bench : Bench
  /-- Signs are put before notices. -/
  signs : Bool := true
  /-- The whole log is shown, and not only warnings. -/
  verbose : Bool := false
  stdout : String := ""
  stderr : String := ""
  /-- Number of log records that were shown or passed over. -/
  logged : Nat := 0

/-- Something went wrong that nobody foresaw. -/
inductive Crash
  | settings (error : Settings.ProjectError)
  | file (error : Files.FileError)
  | markup (error : MarkupError)
  /-- A call handed an error on. -/
  | trouble (trouble : Trouble)
  /-- A call was called off, or gave no fitting reply. -/
  | aborted

/-- Why a command does not come to its end. -/
inductive Stop
  | refused (status : Nat) (message : String)
  | crashed (crash : Crash)

abbrev Work := ExceptT Stop (StateM Session)

def Stop.because (message : String) : Stop :=
  .refused 1 message

/-! ## Output -/

/-- Tell the user something; a failure goes to standard error. -/
def Session.notify (s : Session) (tone : Tone) (message : String) : Session :=
  let text := noticeText tone s.signs message
  if tone.isFailure then { s with stderr := s.stderr ++ text }
  else { s with stdout := s.stdout ++ text }

def notify (tone : Tone) (message : String) : Work Unit :=
  modify (·.notify tone message)

/-- Write to standard output, which is no terminal. -/
def print (text : String) : Work Unit :=
  modify fun s => { s with stdout := s.stdout ++ plain text }

def printLine (line : String) : Work Unit :=
  print (line ++ "\n")

def printTable (t : Table) : Work Unit :=
  match t.text with
  | .ok text => modify fun s => { s with stdout := s.stdout ++ text }
  | .error e => throw (.crashed (.markup e))

/-- A record of some weight is shown; the others only when everything is. -/
def Session.shows (s : Session) (r : LogRecord) : Bool :=
  s.verbose || LogLevel.rank .warning ≤ r.level.rank

/-- Show what the log has gained. -/
def showLog : Work Unit :=
  modify fun s =>
    let gained := (s.bench.log.drop s.logged).filter s.shows
    { s with
      stderr := s.stderr ++ String.join (gained.map fun r => r.long ++ "\n")
      logged := s.bench.log.length }

/-! ## Work on the bench -/

def onBench {α : Type} (f : Bench → Bench × α) : Work α := do
  let s ← get
  let (b, a) := f s.bench
  set { s with bench := b }
  showLog
  return a

def replyOf (f : Option Bench.Finish) : Work Workspace.Reply :=
  match f with
  | some ⟨_, .done reply, _⟩ => return reply
  | some ⟨_, .raised trouble, _⟩ => throw (.crashed (.trouble trouble))
  | _ => throw (.crashed .aborted)

/-- Make a call to the workspace and wait for the reply. -/
def call (request : Workspace.Request) : Work Workspace.Reply := do
  replyOf (← onBench (·.await fun n => .call n request))

/-- Make a call to the registry of the workspace. -/
def askRegistry (request : Registry.Request) : Work Workspace.Reply := do
  replyOf (← onBench (·.await fun n => Bench.registryEvent (.call (.host n) request)))

/-- Make several calls at the same time; the workspace is shut down after them, whatever they bring. -/
def callAll (requests : List Workspace.Request) : Work (List Workspace.Reply) := do
  let finished ← onBench (·.awaitAll (requests.map fun r n => .call n r))
  let _ ← call .shutdown
  finished.mapM replyOf

/-- Put a workspace with these documents on the bench and start it; the reply is the number of active
plugins. -/
def openWorkspace (settings : Settings) (loader : FactoryLoader) (timed : Bool)
    (documents : List TextDocument) : Work Nat := do
  let buffers : Buffers := documents.mapIdx fun i d => (toString i, d)
  modify fun s => { s with bench := { s.bench with
    workspace := .create settings loader buffers
    stopwatch := { enabled := timed } } }
  match ← call .start with
  | .count n => return n
  | _ => throw (.crashed .aborted)

/-- The table of what was timed. -/
def printTimings : Work Unit := do
  let rows := (← get).bench.stopwatch.snapshot.map fun e => TimingRow.ofSummary e.1 e.2
  printTable (timingTable rows)

/-! ## Input -/

/-- Faulty settings are the user's to mend. -/
def Stop.ofProjectError : Settings.ProjectError → Stop
  | .settings (.unreadable message) => .refused 2 message
  | .settings (.invalid problems) => .refused 2 (Settings.problemCount problems.length)
  | e => .crashed (.settings e)

/-- The settings of the project in the working directory. -/
def loadSettings (named : Option String) : Work Settings := do
  let t := (← get).files
  match Settings.sourcesOf t "." named with
  | .error e => throw (.ofProjectError e)
  | .ok sources =>
    let records : List LogRecord := (Settings.filesRead t sources).map fun path =>
      ⟨.debug, .configuration, s!"loaded configuration from {path}"⟩
    onBench fun b => (b.record records, ())
    match Settings.ofSources t sources with
    | .ok settings => return settings
    | .error e => throw (.ofProjectError e)

/-- A file that a command is about, with the path as it is shown. -/
structure Script where
  path : String
  document : TextDocument
  deriving DecidableEq, Repr

/-- The shell scripts among files; the others are passed over with a warning. -/
def loadScripts : List String → Work (List Script)
  | [] => return []
  | file :: rest => do
    let path := (Path.ofString file).text
    match Files.loadDocument (← get).files path none with
    | .error .undecodable => throw (.because s!"Cannot read {path}: <decode error>")
    | .error e => throw (.crashed (.file e))
    | .ok document =>
      if document.isShell then return ⟨path, document⟩ :: (← loadScripts rest)
      else
        notify .warning s!"Skipping {path}: not a shell script"
        loadScripts rest

/-- Why a plugin did not come to a verdict. -/
def incompleteness (v : Verdict) : String :=
  match v.errorMessage with
  | some message => if message.isEmpty then "cancelled" else message
  | none => "cancelled"

end Shellwright.Command
