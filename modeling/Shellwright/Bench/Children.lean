import Shellwright.Bench.World
/-!
# Children on a bench

A child takes its input, writes what its rule says and exits. Its supervisor learns of every step and
may kill it.
-/

namespace Shellwright.Bench

def modifyProcess (b : Bench) (p : Nat) (f : Process → Process) : Bench :=
  { b with processes := b.processes.modify p f }

def modifyLaunch (b : Bench) (n : Nat) (f : Launch → Launch) : Bench :=
  { b with launches := b.launches.modify n f }

/-- Do `f` with a process that is known. -/
def withProcess (b : Bench) (p : Nat) (f : Process → Bench) : Bench :=
  match b.processes[p]? with
  | some process => f process
  | none => b

/-! ## The child -/

/-- A child that has its input does as its rule says. -/
def beginChild (b : Bench) (p : Nat) (process : Process) : Bench :=
  let invocation := process.supervisor.invocation
  let rule := process.program.choose invocation.command.arguments invocation.options.stdin
  let write (b : Bench) (stream : OutputStream) (bytes : List UInt8) : Bench :=
    if bytes.isEmpty then b else b.urge (.write p stream bytes)
  let b := b.modifyProcess p fun process => { process with rule := rule }
  let b := write (write b .stdout rule.stdout) .stderr rule.stderr
  let b := rule.later.foldl (fun b o => b.after o.delay (.write p o.stream o.bytes)) b
  if rule.hangs then b else b.after rule.exitDelay (.exit p rule.status)

/-- Turns of the queue until the end of a stream has been read. -/
def closingTurns : Nat := 2

/-- A child exits; its streams are closed unless it leaves them open. -/
def exitChild (b : Bench) (p : Nat) (status : Int) (process : Process) : Bench :=
  if !process.alive || process.stuck then b
  else
    let keeps := process.rule.keepsStreams
    let b := b.modifyProcess p fun process =>
      { process with alive := false, streamsOpen := process.streamsOpen && keeps }
    let b := b.urge (.supervisor p (.exited status))
    if keeps then b
    else (b.post (.delayed closingTurns (.supervisor p (.closed .stdout)))).post
      (.delayed closingTurns (.supervisor p (.closed .stderr)))

/-- The status of a child that was killed. -/
def killedStatus : Int := -9

/-- A child that has exited, or that cannot be found, is not stopped. -/
def killChild (b : Bench) (p : Nat) (process : Process) : Bench :=
  let b := (b.modifyLaunch process.launch fun l => { l with killed := some b.now }).see
    [process.supervisor.invocation.command.program, "killed"]
  if !process.alive then b
  else match process.rule.onKill with
    | .gone => b
    | .ignores => b.modifyProcess p fun process => { process with stuck := true }
    | .exits delay => b.after delay (.exit p killedStatus)

/-- The input of a child is written and closed, and the child begins. -/
def feedChild (b : Bench) (p : Nat) (process : Process) : Bench :=
  match process.supervisor.invocation.options.stdin with
  | none => b.urge (.supervisor p .fed)
  | some text =>
    let b := b.modifyLaunch process.launch fun l => { l with stdin := some text }
    let b := if process.program.spurnsInput && !text.isEmpty then b.urge (.supervisor p .spurned) else b
    (b.beginChild p process).urge (.supervisor p .fed)

/-- A launch is over. A child without input begins at once, and one with input when it is fed. -/
def launchChild (b : Bench) (p : Nat) (process : Process) : Bench :=
  match process.program.refusal with
  | some error => b.urge (.supervisor p (.refused error))
  | none =>
    let b := b.urge (.supervisor p (.launched (p + 1)))
    let b := match process.supervisor.invocation.options.stdin with
      | none => b.beginChild p process
      | some _ => b.modifyLaunch process.launch fun l => { l with stdin := some "" }
    b.post (.feed p)

/-! ## Its supervisor -/

def prepareLaunch (b : Bench) (p : Nat) (process : Process) : Bench :=
  let invocation := process.supervisor.invocation
  let command := invocation.command
  let program := (b.programs.get? command.program).getD .missing
  let launch : Launch :=
    { time := b.now
      arguments := command.program :: command.arguments
      directory := invocation.options.directory
      environment := invocation.options.environment }
  let number := b.launches.length
  let b := { b with launches := b.launches ++ [launch] }.modifyProcess p fun process =>
    { process with launch := number, program := program }
  if program.launchDelay = 0 then b.urge (.launched p) else b.after program.launchDelay (.launched p)

/-- What is done with the end of an execution that a plugin waits for. -/
abbrev Conclusion := Bench → Nat → Except Supervisor.Stop Execution → Bench

/-- An execution has ended, or was stopped. -/
def endExecution (b : Bench) (p : Nat) (result : Except Supervisor.Stop Execution)
    (process : Process) (conclude : Conclusion) : Bench :=
  let b := match process.metric with
    | some metric => b.clock metric process.since
    | none => b
  match process.waiter with
  | .host => { b with result := some ⟨b.now, result⟩ }
  | .activity a => conclude b a result

/-- See to what a supervisor wants done; `conclude` passes a result on to the plugin that waits. -/
def attend (conclude : Conclusion) (p : Nat) (b : Bench)
    (e : Supervisor.Effect) : Bench :=
  b.withProcess p fun process =>
    let token := process.supervisor.invocation.options.token
    match e with
    | .launch => b.prepareLaunch p process
    | .listen => b.listen token (.process p)
    | .unlisten => b.unlisten token (.process p)
    | .timer delay event => b.after delay (.supervisor p event)
    | .later event => b.post (.supervisor p event)
    | .kill => b.killChild p process
    | .log entry => b.record [entry]
    | .finish result => b.endExecution p (.ok result) process conclude
    | .stop stop => b.endExecution p (.error stop) process conclude

/-- A supervisor has taken a step: keep it and see to what it wants done. -/
def adopt (conclude : Conclusion) (b : Bench) (p : Nat)
    (s : Supervisor Token) : Bench :=
  s.outbox.foldl (attend conclude p)
    (b.modifyProcess p fun process => { process with supervisor := { s with outbox := [] } })

/-- Run a command; the number of the process is that of the processes before it. -/
def execute (conclude : Conclusion) (b : Bench)
    (invocation : Invocation Token) (waiter : Waiter) (metric : Option Metric) : Bench :=
  let s := Supervisor.start invocation (b.isCancelled invocation.options.token)
  let p := b.processes.length
  let process : Process := { supervisor := s, waiter := waiter, metric := metric, since := b.now }
  { b with processes := b.processes ++ [process] }.adopt conclude p s

end Shellwright.Bench
