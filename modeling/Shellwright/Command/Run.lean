import Shellwright.Command.Check
import Shellwright.Command.Format
import Shellwright.Command.Plugins
/-!
# Running commands

A command takes files and a bench and leaves both with what it has printed. Nothing is read or launched
before its arguments have been understood.
-/

namespace Shellwright.Command

def Request.work (r : Request) (loader : FactoryLoader) : Work Nat := do
  let settings ← loadSettings r.settingsFile
  match r.action with
  | .check files => check settings loader r.timings files
  | .format files mode => format settings loader r.timings mode files
  | .plugins => plugins settings loader

/-- How a command has ended. -/
inductive Ending
  | done (status : Nat) (session : Session)
  | crashed (crash : Crash) (session : Session)

/-- The status of a command in which something went wrong that nobody foresaw. -/
def crashStatus : Nat := 1

def Ending.status : Ending → Nat
  | .done status _ => status
  | .crashed _ _ => crashStatus

def Ending.session : Ending → Session
  | .done _ s => s
  | .crashed _ s => s

/-- Run a command on files and a bench. -/
def Request.run (r : Request) (files : Files.Tree) (bench : Bench) (loader : FactoryLoader) :
    Ending :=
  let start : Session :=
    { files := files, bench := bench, signs := r.signs, verbose := r.verbose }
  match (r.work loader).run.run start with
  | (.ok status, s) => .done status s
  | (.error (.refused status message), s) => .done status (s.notify .failure message)
  | (.error (.crashed crash), s) => .crashed crash s

/-- Run the command that arguments ask for. -/
def run (arguments : List String) (files : Files.Tree) (bench : Bench) (loader : FactoryLoader) :
    Except UsageError Ending := do
  let r ← Request.ofArguments arguments
  return (← r.verify files).run files bench loader

end Shellwright.Command
