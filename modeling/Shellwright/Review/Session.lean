import Shellwright.Keyed
/-!
# Sessions

Every document under review has a session: a timer that waits for the document to be quiet, and numbers
for the runs that were dispatched and published. Only the newest run may publish. Sessions are kept
after they have been closed, and so is the cancellation flag of every run.
-/

namespace Shellwright.Review

/-- A document that is to be checked when a timer has run out. -/
structure Debounce where
  timer : Nat
  document : String
  deriving DecidableEq, Repr

structure Session where
  uri : String
  debounce : Option Debounce := none
  /-- The newest run. -/
  source : Option Nat := none
  /-- Number of the newest run within the session. -/
  dispatched : Nat := 0
  /-- Number of the run that published last; a host may set any. -/
  published : Int := 0
  closed : Bool := false
  deriving DecidableEq, Repr

namespace Session

/-- A run publishes when it is the newest of an open session and has not published yet. -/
def mayPublish (s : Session) (sequence : Int) : Bool :=
  !s.closed && sequence == s.dispatched && s.published < sequence

end Session

/-- Every session ever made, by number, and those that are open by the address of their document. -/
structure Sessions where
  all : List Session := []
  registered : Keyed String Nat := []
  /-- For every run ever dispatched, whether it has been cancelled. -/
  cancelled : List Bool := []
  deriving DecidableEq, Repr

namespace Sessions

def get? (s : Sessions) (uri : String) : Option Nat :=
  Keyed.get? s.registered uri

def at? (s : Sessions) (number : Nat) : Option Session :=
  s.all[number]?

def modify (s : Sessions) (number : Nat) (f : Session → Session) : Sessions :=
  { s with all := s.all.modify number f }

/-- The session of an address, made when there is none. -/
def obtain (s : Sessions) (uri : String) : Sessions × Nat :=
  match s.get? uri with
  | some number => (s, number)
  | none =>
    ({ s with all := s.all ++ [{ uri := uri }], registered := s.registered.put uri s.all.length },
      s.all.length)

def cancelRun (s : Sessions) (run : Nat) : Sessions :=
  { s with cancelled := s.cancelled.set run true }

/-- Cancel the newest run of a session. -/
def cancelNewest (s : Sessions) (number : Nat) : Sessions :=
  match (s.at? number).bind (·.source) with
  | some run => s.cancelRun run
  | none => s

/-- Drop the timer of a session. -/
def cancelPending (s : Sessions) (number : Nat) : Sessions :=
  s.modify number fun session => { session with debounce := none }

/-- Cancel the newest run of a session and reserve the next number for another. -/
def supersede (s : Sessions) (number : Nat) : Sessions :=
  let s := s.cancelNewest number
  { s with
    all := s.all.modify number fun session =>
      { session with dispatched := session.dispatched + 1, source := some s.cancelled.length }
    cancelled := s.cancelled ++ [false] }

def markPublished (s : Sessions) (number : Nat) (sequence : Int) : Sessions :=
  s.modify number fun session => { session with published := sequence }

/-- Results of a closed session are not published. -/
def closeSession (s : Sessions) (number : Nat) : Sessions :=
  (s.modify number fun session => { session with closed := true, debounce := none }).cancelNewest
    number

/-- Close and forget the session of an address. -/
def close (s : Sessions) (uri : String) : Sessions :=
  match s.get? uri with
  | some number => { s with registered := s.registered.drop uri }.closeSession number
  | none => s

def closeAll (s : Sessions) : Sessions :=
  s.registered.values.foldl closeSession { s with registered := [] }

/-- Open sessions in the order in which they were made. -/
def registeredSessions (s : Sessions) : List Session :=
  s.registered.values.filterMap s.at?

end Sessions

end Shellwright.Review
