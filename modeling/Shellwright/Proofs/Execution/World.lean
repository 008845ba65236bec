import Shellwright.Cancellation.Tokens
import Shellwright.Execution.Supervisor
/-!
# A supervisor and its child

A supervisor on a clock, with the child that it looks after and the token that cancels it. The child
writes, closes its streams and exits when it likes, and what it writes waits until it is read. The clock
goes on when nothing is left that is due.
-/

namespace Shellwright.Supervisor

open Cancellation (Tokens)

variable {τ : Type}

/-- In this stage it matters what the child does. -/
def Stage.isAttentive : Stage → Bool
  | .launching => false
  | .ended => false
  | _ => true

/-- An output stream of a child, with all that was ever written to it. -/
structure Pipe where
  written : List UInt8 := []
  /-- How much of it was read. -/
  read : Nat := 0
  /-- Nobody can write any more. -/
  closed : Bool := false
  /-- The reader has come to the end. -/
  ended : Bool := false

/-- Nothing is left to be read for now. -/
def Pipe.isQuiet (p : Pipe) : Bool :=
  p.read == p.written.length && (!p.closed || p.ended)

/-- The source of a token that one supervisor may listen to. -/
def source (cancelled listening : Bool) : Tokens Unit Unit Unit :=
  { sources := [((), { cancelled := cancelled, listeners := if listening then [.callback ()] else [] })] }

structure World (τ : Type) where
  supervisor : Supervisor τ
  /-- Milliseconds since the command was to be run. -/
  now : Nat := 0
  /-- What is to happen, and when. -/
  due : List (Nat × Event) := []
  tokens : Tokens Unit Unit Unit
  pipe : OutputStream → Pipe := fun _ => {}
  /-- The status with which the child has exited. -/
  status : Option Int := none
  /-- The exit has been noticed. -/
  noticed : Bool := false
  /-- The child has taken its input, or does not want it. -/
  fed : Bool := false
  launches : Nat := 0
  /-- When the launch had succeeded. -/
  since : Option Nat := none
  killed : Bool := false
  results : List (Except Stop Execution) := []

inductive Move
  | launched (pid : Nat)
  | refused (error : SystemError)
  | write (stream : OutputStream) (bytes : List UInt8)
  /-- The child, and whoever shares the stream with it, has closed it. -/
  | close (stream : OutputStream)
  | exit (status : Int)
  | feed
  | spurn
  /-- Some bytes are read that were written. -/
  | read (stream : OutputStream) (count : Nat)
  /-- The reader comes to the end of a stream. -/
  | exhaust (stream : OutputStream)
  /-- It is noticed that the child has exited. -/
  | notice
  | cancel
  /-- One of the things happens that are due. -/
  | next (n : Nat)
  /-- A millisecond passes. -/
  | tick

namespace World

/-! ## What a supervisor wants done -/

def schedule (w : World τ) (delay : Nat) (e : Event) : World τ :=
  { w with due := w.due ++ [(w.now + delay, e)] }

/-- Listen to the token, if there is one; a token that is cancelled already tells at once. -/
def listen (w : World τ) : World τ :=
  if w.supervisor.invocation.options.token.isNone then w
  else if w.tokens.isCancelled () then w.schedule 0 .cancelled
  else { w with tokens := w.tokens.addListener () (.callback ()) }

def serve (w : World τ) : Effect → World τ
  | .launch => { w with launches := w.launches + 1 }
  | .listen => w.listen
  | .unlisten => { w with tokens := w.tokens.removeListener () (.callback ()) }
  | .timer delay e => w.schedule delay.toNat e
  | .later e => w.schedule 0 e
  | .kill => { w with killed := true }
  | .log _ => w
  | .finish result => { w with results := w.results ++ [.ok result] }
  | .stop stop => { w with results := w.results ++ [.error stop] }

/-- The supervisor has taken a step, and what it wants done is done. -/
def adopt (w : World τ) (s : Supervisor τ) : World τ :=
  s.outbox.foldl serve { w with supervisor := { s with outbox := [] } }

def tell (w : World τ) (e : Event) : World τ :=
  w.adopt (w.supervisor.step e)

/-- A command is to be run, with a token that may be cancelled already. -/
def start (invocation : Invocation τ) (cancelled : Bool) : World τ :=
  let s := Supervisor.start invocation (invocation.options.token.isSome && cancelled)
  { supervisor := s, tokens := source cancelled false : World τ }.adopt s

/-! ## What happens -/

def changePipe (w : World τ) (stream : OutputStream) (f : Pipe → Pipe) : World τ :=
  { w with pipe := fun other => if other = stream then f (w.pipe other) else w.pipe other }

/-- The token is cancelled, and who listens to it is told. -/
def cancel (w : World τ) : World τ :=
  let (tokens, told) := w.tokens.cancel (fun _ => ()) ()
  { w with tokens := tokens, due := w.due ++ told.map fun _ => (w.now, .cancelled) }

/-- It matters what the child does. -/
def isAttentive (w : World τ) : Bool :=
  w.supervisor.stage.isAttentive

/-- Nothing is left to be done now. -/
def isSettled (w : World τ) : Bool :=
  (w.due.all fun x => w.now < x.1) &&
    (!w.isAttentive || (w.pipe .stdout).isQuiet && (w.pipe .stderr).isQuiet &&
      (w.status.isNone || w.noticed))

/-- A move that is not possible changes nothing. -/
def step (w : World τ) : Move → World τ
  | .launched pid =>
    if w.supervisor.stage = .launching then { w with since := some w.now }.tell (.launched pid) else w
  | .refused error => if w.supervisor.stage = .launching then w.tell (.refused error) else w
  | .write stream bytes =>
    if (w.pipe stream).closed then w
    else w.changePipe stream fun p => { p with written := p.written ++ bytes }
  | .close stream => w.changePipe stream fun p => { p with closed := true }
  | .exit status => if w.status.isSome then w else { w with status := some status }
  | .feed => if w.isAttentive && !w.fed then { w with fed := true }.tell .fed else w
  | .spurn => if w.isAttentive && !w.fed then w.tell .spurned else w
  | .read stream count =>
    if w.isAttentive then
      let bytes := ((w.pipe stream).written.drop (w.pipe stream).read).take count
      (w.changePipe stream fun p => { p with read := p.read + bytes.length }).tell (.wrote stream bytes)
    else w
  | .exhaust stream =>
    if w.isAttentive && (w.pipe stream).closed &&
        (w.pipe stream).read == (w.pipe stream).written.length && !(w.pipe stream).ended then
      (w.changePipe stream fun p => { p with ended := true }).tell (.closed stream)
    else w
  | .notice =>
    match w.status with
    | some status =>
      if w.isAttentive && !w.noticed then { w with noticed := true }.tell (.exited status) else w
    | none => w
  | .cancel => w.cancel
  | .next n =>
    match w.due[n]? with
    | some (time, e) => if time ≤ w.now then { w with due := w.due.eraseIdx n }.tell e else w
    | none => w
  | .tick => if w.isSettled then { w with now := w.now + 1 } else w

/-! ## What has come about -/

/-- The child has exited, closed its streams and taken its input. -/
def isComplete (w : World τ) : Bool :=
  w.status.isSome && (w.pipe .stdout).closed && (w.pipe .stderr).closed && w.fed

/-- The token is cancelled, and the child is there that is to be stopped. -/
def isCancelled (w : World τ) : Bool :=
  w.since.isSome && w.supervisor.invocation.options.token.isSome && w.tokens.isCancelled ()

/-- The time limit has passed since the child was there. -/
def isExpired (w : World τ) : Bool :=
  w.since.any fun since =>
    w.supervisor.invocation.options.timeout.any fun limit => since + limit.toNat ≤ w.now

end World

end Shellwright.Supervisor
