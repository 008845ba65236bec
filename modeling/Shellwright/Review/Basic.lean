import Shellwright.Diagnostic.Sink
import Shellwright.Registry.Basic
import Shellwright.Review.Session
import Shellwright.Settings.Basic
/-!
# Review of documents

Documents are checked at once when they are opened or saved, and after a quiet time when they are
edited. A check of the newest state of a document supersedes the checks before it, and only the newest
publishes. Formatting may apply the edits of a formatter and then checks the document anew.
-/

namespace Shellwright.Review

/-- What became of a request to fix a document. -/
inductive FixOutcome
  | applied
  | unchanged
  | refused
  | rejected
  | inconclusive
  | skipped
  deriving DecidableEq, Repr

def FixOutcome.label : FixOutcome → String
  | .applied => "applied"
  | .unchanged => "unchanged"
  | .refused => "refused"
  | .rejected => "rejected"
  | .inconclusive => "inconclusive"
  | .skipped => "skipped"

/-- Documents are named as in `Buffers`; a fix may edit those that are listed. -/
inductive Request
  | diagnose (document : String)
  | diagnoseAll (documents : List String)
  | format (document : String) (token : Option Token)
  | fixAll (document : String) (token : Option Token) (editable : List String)
  | shutdown
  deriving DecidableEq, Repr

inductive Reply
  /-- No verdict on a document that is not a shell script. -/
  | verdict (verdict : Option Verdict)
  /-- Verdicts by the addresses of the documents. -/
  | verdicts (verdicts : Keyed String Verdict)
  | formatted (verdict : FormatVerdict)
  | fixed (outcome : FixOutcome)
  | settled
  deriving DecidableEq, Repr

/-- One check of a document, for a session. -/
structure Run where
  session : Nat
  /-- Its number within the session. -/
  sequence : Nat
  document : String
  /-- Called off before it has begun. -/
  dropped : Bool := false
  /-- How it ended, when it has. -/
  outcome : Option (Outcome Verdict) := none
  deriving DecidableEq, Repr

/-- One document among several that are checked at the same time. -/
inductive Member
  | waiting
  | running (run : Nat)
  | settled (verdict : Option Verdict)
  deriving DecidableEq, Repr

/-- What a format is for. -/
inductive FormatPurpose
  | edits
  | fix (editable : List String)
  deriving DecidableEq, Repr

/-- Where a call waits. -/
inductive Stage
  | running (run : Nat)
  | several (members : List (String × Member))
  | formatting (document : String) (purpose : FormatPurpose)
  /-- A run comes before the reply that is already known. -/
  | refreshing (run : Nat) (document : String) (purpose : FormatPurpose) (verdict : FormatVerdict)
  /-- A run comes before the reply that edits were applied. -/
  | applied (run : Nat)
  | closing (runs : List Nat)
  deriving DecidableEq, Repr

structure Call where
  stage : Stage
  aborting : Bool := false
  deriving DecidableEq, Repr

/-- What happens to a review. -/
inductive Event
  | registry (event : Registry.Event)
  | call (n : Nat) (request : Request)
  | change (document : String)
  | close (document : String)
  /-- The host has changed the text of a document. -/
  | update (document text : String)
  | configure (debounce : Option Int) (timeout : Option Execution.Limit) (onChange : Bool)
  /-- A timer has run out. -/
  | elapsed (timer : Nat)
  /-- One of several documents is to be checked now. -/
  | member (n i : Nat)
  /-- A run is to begin. -/
  | begin (run : Nat)
  /-- A run has ended, and those who wait for it go on. -/
  | ended (run : Nat)
  /-- All of several documents have been checked. -/
  | gathered (n : Nat)
  | abort (n : Nat)

/-- What a review wants done. -/
inductive Effect
  | later (event : Event)
  | timer (number : Nat) (delay : Int)
  /-- Tell those who listen that a run is cancelled. -/
  | cancel (run : Nat)
  | ask (key : CallKey) (part : Nat) (plugin : Plugin) (question : Question)
  | quit (key : CallKey) (part : Nat)
  /-- The check of a run goes on from now. -/
  | started (run : Nat)
  /-- The check of a run is over. -/
  | stopped (run : Nat)
  | finish (n : Nat) (outcome : Outcome Reply)
  /-- The end of a call that the host has made of the registry. -/
  | finishRegistry (n : Nat) (outcome : Outcome Registry.Reply)
  | log (record : LogRecord)

end Review

structure Reviewer where
  registry : Registry := {}
  buffers : Buffers := []
  sink : DiagnosticSink := {}
  /-- How long a document has to be quiet, in milliseconds; none when what was given is no time. -/
  debounce : Option Int := some 300
  timeout : Option Execution.Limit := none
  onChange : Bool := true
  sessions : Review.Sessions := {}
  /-- Every run ever dispatched; its number is that of its cancellation flag. -/
  runs : List Review.Run := []
  /-- Number of timers set so far. -/
  timers : Nat := 0
  calls : Keyed Nat Review.Call := []
  outbox : List Review.Effect := []

end Shellwright
