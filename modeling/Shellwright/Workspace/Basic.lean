import Shellwright.Plugin.Build
import Shellwright.Review.Step
/-!
# Workspaces

A workspace has settings, the plugins that they ask for and the documents that are open. It takes the
events of the host's documents and reacts to new settings.
-/

namespace Shellwright

/-- Supplies the factories of third parties. -/
structure FactoryLoader where
  load : Except LoadFailure (List Factory × List LogRecord)

/-- A loader that supplies none. -/
def FactoryLoader.none : FactoryLoader := ⟨.ok ([], [])⟩

def FactoryLoader.ofEntryPoints (entries : List EntryPoint) : FactoryLoader :=
  ⟨loadFactories entries⟩

namespace Workspace

/-- What a workspace is asked to do that may have to wait. -/
inductive Request
  | start
  | openDocument (document : String)
  | saveDocument (document : String)
  | format (document : String) (token : Option Token)
  | fixAll (document : String) (token : Option Token) (editable : List String)
  | apply (settings : Settings) (documents : List String)
  | shutdown
  deriving DecidableEq, Repr

inductive Reply
  | count (n : Nat)
  | review (reply : Review.Reply)
  | registry (reply : Registry.Reply)
  | settled
  deriving DecidableEq, Repr

/-- Where a call waits that is not passed on as it is. -/
inductive Stage
  | starting
  | rebuilding
  | diagnosing
  | closing
  deriving DecidableEq, Repr

/-- What happens to a workspace. Events of the review and of the registry may come from the host as
well. -/
inductive Event
  | review (event : Review.Event)
  | call (n : Nat) (request : Request)
  | change (document : String)
  | close (document : String)
  | abort (n : Nat)

/-- What a workspace wants done. -/
inductive Effect
  | later (event : Event)
  | timer (number : Nat) (delay : Int)
  | cancel (run : Nat)
  | ask (key : CallKey) (part : Nat) (plugin : Plugin) (question : Question)
  | quit (key : CallKey) (part : Nat)
  | started (run : Nat)
  | stopped (run : Nat)
  | finish (n : Nat) (outcome : Outcome Reply)
  | log (record : LogRecord)

end Workspace

structure Workspace where
  reviewer : Reviewer := {}
  settings : Settings := {}
  loader : FactoryLoader := .none
  /-- Open documents by address. -/
  documents : Keyed String String := []
  /-- Number of plugins made so far. -/
  made : Nat := 0
  calls : Keyed Nat Workspace.Stage := []
  outbox : List Workspace.Effect := []

namespace Workspace

/-- A workspace that has not been started. -/
def create (settings : Settings) (loader : FactoryLoader) (buffers : Buffers) : Workspace :=
  { settings := settings
    loader := loader
    reviewer :=
      { buffers := buffers
        debounce := some (settings.diagnosis.debounce : Int)
        timeout := some (.milliseconds settings.diagnosis.timeout)
        onChange := settings.diagnosis.onChange } }

def emit (w : Workspace) (e : Effect) : Workspace :=
  { w with outbox := w.outbox ++ [e] }

def log (w : Workspace) (level : LogLevel) (text : String) : Workspace :=
  w.emit (.log ⟨level, .workspace, text⟩)

def setCall (w : Workspace) (n : Nat) (stage : Stage) : Workspace :=
  { w with calls := w.calls.put n stage }

def finish (w : Workspace) (n : Nat) (outcome : Outcome Reply) : Workspace :=
  { w with calls := w.calls.drop n }.emit (.finish n outcome)

def registry (w : Workspace) : Registry :=
  w.reviewer.registry

end Workspace

/-- An outcome with another reply. -/
def Outcome.map {α β : Type} (f : α → β) : Outcome α → Outcome β
  | .done a => .done (f a)
  | .raised trouble => .raised trouble
  | .aborted => .aborted

end Shellwright
