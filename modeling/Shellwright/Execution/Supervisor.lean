import Shellwright.Execution.Basic
import Shellwright.Execution.Options
import Shellwright.Log
import Shellwright.Text.Utf8
/-!
# Supervision of a child process

A child is supervised until it has exited and closed its streams, until it is cancelled, or until its
time is up. When the supervisor wakes it takes the first of these that has been recorded, in that order;
a child that has not completed is killed, and given some time to exit and to close its streams.
-/

namespace Shellwright

/-- A command to run, with its options. -/
structure Invocation (τ : Type) where
  command : CommandLine
  options : Execution.Options τ := {}
  deriving DecidableEq, Repr

/-- One of the two output streams of a child. -/
inductive OutputStream
  | stdout
  | stderr
  deriving DecidableEq, Repr

namespace Supervisor

/-- How long a killed child has to exit, and then to close its streams, in milliseconds. -/
def grace : Int := 2000

/-- Why a child is killed. -/
inductive Cause
  | cancelled
  | timedOut
  /-- Nobody waits for the child any more. -/
  | aborted
  deriving DecidableEq, Repr

inductive Stage
  | launching
  | supervising
  /-- Killed and not known to have exited. -/
  | killing (cause : Cause)
  /-- Killed, with streams that are still open. -/
  | draining (cause : Cause)
  | ended
  deriving DecidableEq, Repr

/-- What happens to a supervisor. -/
inductive Event
  | launched (pid : Nat)
  | refused (error : SystemError)
  | wrote (stream : OutputStream) (bytes : List UInt8)
  | closed (stream : OutputStream)
  /-- The standard input of the child has been written and closed. -/
  | fed
  /-- The child did not take all of its standard input. -/
  | spurned
  | exited (status : Int)
  | completed
  | cancelled
  | expired
  | wake
  /-- The grace time that began in a stage is over. -/
  | graceOver (stage : Stage)
  | abort
  deriving DecidableEq, Repr

/-- Why a child cannot be supervised. -/
inductive Crash
  /-- The time limit is beyond what the clock can measure. -/
  | immeasurable
  /-- The input is no text. -/
  | unwritable
  deriving DecidableEq, Repr

def Crash.message : Crash → String
  | .immeasurable => "int too large to convert to float"
  | .unwritable => "the input is no text"

/-- How a supervisor ends that has no execution to show. -/
inductive Stop
  | aborted
  | crashed (crash : Crash)
  deriving DecidableEq, Repr

/-- What a supervisor wants done. -/
inductive Effect
  | launch
  /-- Hear of cancellation from the token of the invocation. -/
  | listen
  | unlisten
  | timer (delay : Int) (event : Event)
  | later (event : Event)
  | kill
  | log (record : LogRecord)
  | finish (result : Execution)
  | stop (stop : Stop)
  deriving DecidableEq, Repr

end Supervisor

structure Supervisor (τ : Type) where
  invocation : Invocation τ
  stage : Supervisor.Stage := .launching
  pid : Nat := 0
  stdout : List UInt8 := []
  stderr : List UInt8 := []
  stdoutClosed : Bool := false
  stderrClosed : Bool := false
  fed : Bool := false
  status : Option Int := none
  completed : Bool := false
  cancelled : Bool := false
  outbox : List Supervisor.Effect := []

namespace Supervisor

variable {τ : Type}

def emit (s : Supervisor τ) (e : Effect) : Supervisor τ :=
  { s with outbox := s.outbox ++ [e] }

def log (s : Supervisor τ) (level : LogLevel) (text : String) : Supervisor τ :=
  s.emit (.log ⟨level, .execution, text⟩)

def command (s : Supervisor τ) : String :=
  s.invocation.command.text

/-- The supervisor is done, with the output captured so far. -/
def finish (s : Supervisor τ) (ending : Ending) : Supervisor τ :=
  { s with stage := .ended }.emit (.finish
    ⟨s.command, ending, Text.Utf8.decodeLossy s.stdout, Text.Utf8.decodeLossy s.stderr⟩)

/-- Start a child, unless it is cancelled already. -/
def start (invocation : Invocation τ) (cancelled : Bool) : Supervisor τ :=
  let s : Supervisor τ := { invocation := invocation }
  if cancelled then
    (s.log .debug s!"skipping {s.command}: cancelled before start").finish
      (.failed (.cancelled s!"Execute {s.command} cancelled before start"))
  else (s.log .debug s!"spawning {s.command}").emit .launch

/-- The supervisor is done with nothing to show. -/
def halt (s : Supervisor τ) (stop : Stop) : Supervisor τ :=
  { s with stage := .ended }.emit (.stop stop)

/-- Why the child cannot be supervised, when it cannot. -/
def crash? (s : Supervisor τ) : Option Crash :=
  if s.invocation.options.timeout.any fun limit => !Execution.isMeasurable limit then some .immeasurable
  else if s.invocation.options.unwritable then some .unwritable
  else none

/-- The child is left to itself. A limit is measured before anything is prepared for the end, so that
nobody takes the listener away. -/
def crash (s : Supervisor τ) : Crash → Supervisor τ
  | .immeasurable => s.halt (.crashed .immeasurable)
  | .unwritable => (s.emit .unlisten).halt (.crashed .unwritable)

/-- The child runs: from now on its time counts and it can be cancelled. -/
def launched (s : Supervisor τ) (pid : Nat) : Supervisor τ :=
  let s := { s with stage := .supervising, pid := pid }.emit .listen
  match s.crash?, s.invocation.options.timeout with
  | some crash, _ => s.crash crash
  | none, some limit => s.emit (.timer limit .expired)
  | none, none => s

def refused (s : Supervisor τ) (error : SystemError) : Supervisor τ :=
  let failure := Failure.ofSystemError s.invocation.command.program error
  (s.log .debug s!"spawn of {s.command} failed: {failure.message}").finish (.failed failure)

/-- What is left to be said about a child that was killed. -/
def conclude (s : Supervisor τ) : Cause → Supervisor τ
  | .aborted => (s.emit .unlisten).halt .aborted
  | .cancelled =>
    (s.log .debug s!"{s.command} cancelled").finish
      (.failed (.cancelled s!"Execute {s.command} cancelled"))
  | .timedOut =>
    let limit := s.invocation.options.timeout.getD 0
    (s.log .warning s!"{s.command} timed out after {limit}ms").finish
      (.failed (.timeout s!"Execute {s.command} timed out after {limit}ms" limit))

/-- All input has been written and both streams are at their end. -/
def isDrained (s : Supervisor τ) : Bool :=
  s.stdoutClosed && s.stderrClosed && s.fed

/-- The child has exited, or was given up: wait for its streams. -/
def drain (s : Supervisor τ) (cause : Cause) : Supervisor τ :=
  if s.isDrained then s.conclude cause
  else { s with stage := .draining cause }.emit (.timer grace (.graceOver (.draining cause)))

/-- Kill the child and wait for its exit. -/
def terminate (s : Supervisor τ) (cause : Cause) : Supervisor τ :=
  let s := s.emit .kill
  if s.status.isSome then s.drain cause
  else { s with stage := .killing cause }.emit (.timer grace (.graceOver (.killing cause)))

/-- The first of what has been recorded decides. -/
def wake (s : Supervisor τ) : Supervisor τ :=
  let s := s.emit .unlisten
  match s.completed, s.status with
  | true, some status => (s.log .debug s!"{s.command} exited with {status}").finish (.exited status)
  | _, _ => s.terminate (if s.cancelled then .cancelled else .timedOut)

/-- Something was learned about the child. -/
def progress (s : Supervisor τ) : Supervisor τ :=
  match s.stage with
  | .supervising =>
    if s.isDrained && s.status.isSome && !s.completed then s.emit (.later .completed) else s
  | .killing cause => if s.status.isSome then s.drain cause else s
  | .draining cause => if s.isDrained then s.conclude cause else s
  | _ => s

def wrote (s : Supervisor τ) (stream : OutputStream) (bytes : List UInt8) : Supervisor τ :=
  match stream with
  | .stdout => { s with stdout := s.stdout ++ bytes }
  | .stderr => { s with stderr := s.stderr ++ bytes }

def closed (s : Supervisor τ) : OutputStream → Supervisor τ
  | .stdout => { s with stdoutClosed := true }.progress
  | .stderr => { s with stderrClosed := true }.progress

/-- Nobody waits any more, and the token is listened to until the end. A child that is being killed
already is left to itself. -/
def abort (s : Supervisor τ) : Supervisor τ :=
  match s.stage with
  | .supervising => s.terminate .aborted
  | .killing .aborted | .draining .aborted => s.conclude .aborted
  | _ => s.halt .aborted

def step (s : Supervisor τ) (e : Event) : Supervisor τ :=
  match s.stage, e with
  | .ended, _ => s
  | _, .abort => s.abort
  | .launching, .launched pid => s.launched pid
  | .launching, .refused error => s.refused error
  | .launching, _ => s
  | _, .wrote stream bytes => s.wrote stream bytes
  | _, .closed stream => s.closed stream
  | _, .fed => { s with fed := true }.progress
  | _, .spurned => s.log .debug s!"process {s.pid} closed stdin early"
  | _, .exited status => { s with status := some status }.progress
  | .supervising, .completed => { s with completed := true }.emit (.later .wake)
  | .supervising, .cancelled => { s with cancelled := true }.emit (.later .wake)
  | .supervising, .expired => s.emit (.later .wake)
  | .supervising, .wake => s.wake
  | stage, .graceOver waited =>
    match waited with
    | .killing cause =>
      if stage = waited then
        (s.log .warning s!"process {s.pid} did not exit after kill").drain cause
      else s
    | .draining cause => if stage = waited then s.conclude cause else s
    | _ => s
  | _, _ => s

end Supervisor

end Shellwright
