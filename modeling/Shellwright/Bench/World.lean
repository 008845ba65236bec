import Shellwright.Bench.Script
import Shellwright.Cancellation.Tokens
import Shellwright.Plugin.Basic
import Shellwright.Workspace.Step
/-!
# The world of a bench

A workspace on a virtual clock, with the children, plugins and sources of cancellation around it. What
is to happen next waits in a queue; when the queue is empty the clock jumps to the next timer.
-/

namespace Shellwright.Bench

/-- Who is told that a token was cancelled. -/
inductive Subscriber
  | process (number : Nat)
  | activity (number : Nat)
  deriving DecidableEq, Repr

/-- Something that is to happen. -/
inductive Message
  | workspace (event : Workspace.Event)
  | supervisor (process : Nat) (event : Supervisor.Event)
  /-- A launch is over. -/
  | launched (process : Nat)
  /-- The input of a child is written. -/
  | feed (process : Nat)
  | write (process : Nat) (stream : OutputStream) (bytes : List UInt8)
  | exit (process : Nat) (status : Int)
  /-- The time has passed that a scripted plugin takes. -/
  | ready (activity : Nat)
  /-- A scripted plugin is cancelled. -/
  | interrupt (activity : Nat)
  /-- A scripted plugin is made to stop. -/
  | quit (activity : Nat)
  | cancel (source : Token)
  /-- Something that takes some more turns of the queue. -/
  | delayed (turns : Nat) (message : Message)

structure Timer where
  due : Nat
  message : Message

/-- A launch, as the host sees it. -/
structure Launch where
  time : Nat
  arguments : List String
  stdin : Option String := none
  directory : Option String := none
  environment : Option (List (String × String)) := none
  killed : Option Nat := none

/-- Who waits for an execution. -/
inductive Waiter
  | activity (number : Nat)
  | host

structure Process where
  supervisor : Supervisor Token
  waiter : Waiter
  metric : Option Metric := none
  since : Nat
  launch : Nat := 0
  program : Program := {}
  rule : Rule := {}
  alive : Bool := true
  streamsOpen : Bool := true
  /-- The child was killed and never exits. -/
  stuck : Bool := false

/-- A question that a plugin has not answered yet. -/
structure Activity where
  key : CallKey
  part : Nat
  plugin : Plugin
  question : Question
  /-- The text of the document when the question was asked. -/
  text : String
  since : Nat
  process : Option Nat := none
  /-- What its tool has come to. -/
  execution : Option Execution := none
  answer : Answer
  ended : Bool := false

/-- Something that was seen to happen, in words. -/
structure Sighting where
  time : Nat
  words : List String
  deriving DecidableEq, Repr

/-- The end of a call that the host has made, with the documents as they were then. -/
structure Finish where
  call : Nat
  outcome : Outcome Workspace.Reply
  buffers : Buffers

/-- The end of an execution that the host has asked for. -/
structure HostResult where
  time : Nat
  execution : Except Supervisor.Stop Execution

end Bench

structure Bench where
  now : Nat := 0
  /-- What is to happen before anything in the queue. -/
  urgent : List Bench.Message := []
  queue : List Bench.Message := []
  /-- In the order in which they were set. -/
  timers : List Bench.Timer := []
  workspace : Workspace := {}
  programs : Keyed String Bench.Program := []
  scripts : List Bench.Script := []
  /-- Addresses of the documents whose file name is no text, so that no path can be made of it. -/
  pathless : List String := []
  /-- Names are those that the host gives to its sources. -/
  tokens : Cancellation.Tokens Token Bench.Subscriber String := {}
  processes : List Bench.Process := []
  activities : List Bench.Activity := []
  /-- Runs that are being timed, with the time of their start. -/
  runs : Keyed Nat Nat := []
  stopwatch : Stopwatch := { enabled := false }
  /-- The tools of plugins are timed, and not only the plugins. -/
  timesTools : Bool := true
  /-- Number of calls made by the host. -/
  calls : Nat := 0
  launches : List Bench.Launch := []
  sightings : List Bench.Sighting := []
  log : List LogRecord := []
  finished : List Bench.Finish := []
  result : Option Bench.HostResult := none

namespace Bench

/-! ## The queue and the clock -/

def urge (b : Bench) (m : Message) : Bench :=
  { b with urgent := b.urgent ++ [m] }

def post (b : Bench) (m : Message) : Bench :=
  { b with queue := b.queue ++ [m] }

/-- Something that happens some milliseconds later; without a delay it waits in the queue. -/
def after (b : Bench) (delay : Int) (m : Message) : Bench :=
  if delay ≤ 0 then b.post m
  else { b with timers := b.timers ++ [⟨b.now + delay.toNat, m⟩] }

def see (b : Bench) (words : List String) : Bench :=
  { b with sightings := b.sightings ++ [⟨b.now, words⟩] }

def record (b : Bench) (records : List LogRecord) : Bench :=
  { b with log := b.log ++ records }

/-- The reading in seconds of a clock that counts milliseconds. -/
def reading (time : Nat) : Float :=
  Float.ofNat time / 1000.0

/-- Record the time that something has taken since `since`. -/
def clock (b : Bench) (metric : Metric) (since : Nat) : Bench :=
  { b with
    stopwatch := b.stopwatch.recordSpan metric.label (reading since) (reading b.now) }

/-- Let the workspace take part in what happens now. -/
def tell (b : Bench) (e : Workspace.Event) : Bench :=
  b.urge (.workspace e)

def buffers (b : Bench) : Buffers :=
  b.workspace.reviewer.buffers

/-! ## Cancellation -/

/-- The source of a token, known or not yet. -/
def source (b : Bench) (token : Token) : Bench :=
  if (b.tokens.source? token).isSome then b
  else { b with tokens := b.tokens.create token none }

/-- Sources of the host are numbered. -/
def users : Cancellation.Users Token Subscriber String :=
  Cancellation.Tokens.passive Token.host

/-- The host makes a source under a name, or learns that its parent is not known. -/
def createSource (b : Bench) (name : String) (parent : Option (Cancellation.Followed String)) : Bench :=
  { b with tokens := ({ b.tokens with failed := none }.act users (.create name parent)).settle users 2 }

/-- The token of the source that has a name now. -/
def hostToken? (b : Bench) (name : String) : Option Token :=
  b.tokens.names.get? name

def isCancelled (b : Bench) (token : Option Token) : Bool :=
  token.any b.tokens.isCancelled

/-- Turns of the queue until the supervisor of a child hears of cancellation. -/
def hearingTurns : Nat := 3

def hear (b : Bench) : Subscriber → Bench
  | .process p => b.post (.delayed hearingTurns (.supervisor p .cancelled))
  | .activity a => b.post (.interrupt a)

/-- Cancel a source and all that follow it; everyone who listens is told. -/
def cancel (b : Bench) (token : Token) : Bench :=
  let b := b.source token
  let (tokens, told) := b.tokens.cancel Token.host token
  told.foldl hear { b with tokens := tokens }

/-- Listen to a token; one that is cancelled already tells at once. -/
def listen (b : Bench) (token : Option Token) (s : Subscriber) : Bench :=
  match token with
  | none => b
  | some token =>
    let b := b.source token
    if b.tokens.isCancelled token then b.hear s
    else { b with tokens := b.tokens.addListener token (.callback s) }

def unlisten (b : Bench) (token : Option Token) (s : Subscriber) : Bench :=
  match token with
  | none => b
  | some token => { b with tokens := b.tokens.removeListener token (.callback s) }

end Bench

end Shellwright
