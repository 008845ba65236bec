import Shellwright.Bench.Run
import Shellwright.Wire.Encode
/-!
# Observing a bench

What has happened on a bench since an earlier moment, in an order that does not depend on ties.
-/

namespace Shellwright.Bench

/-- How much had happened at some moment. -/
structure Moment where
  launches : Nat := 0
  sightings : Nat := 0
  log : Nat := 0
  finished : Nat := 0
  publications : Nat := 0

def moment (b : Bench) : Moment :=
  ⟨b.launches.length, b.sightings.length, b.log.length, b.finished.length,
    b.workspace.reviewer.sink.history.length⟩

def timedBefore (s t : Nat) (u v : List String) : Bool :=
  if s = t then Wire.pathBefore u v else s < t

/-- By time, and then by the arguments. -/
def sortLaunches (ls : List Launch) : List Launch :=
  ls.mergeSort fun a b => timedBefore a.time b.time a.arguments b.arguments

/-- By time, and then by the words. -/
def sightingsSince (b : Bench) (m : Moment) : List Sighting :=
  (b.sightings.drop m.sightings).mergeSort fun x y => timedBefore x.time y.time x.words y.words

def launchesSince (b : Bench) (m : Moment) : List Launch :=
  sortLaunches (b.launches.drop m.launches)

/-- Records of some weight, as sorted lines. -/
def logSince (b : Bench) (m : Moment) : List String :=
  (((b.log.drop m.log).filter fun r => LogLevel.rank .warning ≤ r.level.rank).map
    LogRecord.short).mergeSort (· ≤ ·)

def finishedSince (b : Bench) (m : Moment) : List Finish :=
  b.finished.drop m.finished

/-- By address; the publications for one address stay in order. -/
def publishedSince (b : Bench) (m : Moment) : List (String × List Diagnostic) :=
  (b.workspace.reviewer.sink.history.drop m.publications).mergeSort fun x y => x.1 ≤ y.1

/-- Some run of a session has not ended yet. -/
def isRunning (b : Bench) (session : Nat) : Bool :=
  b.workspace.reviewer.runs.any fun run => run.session == session && run.outcome.isNone

def Launch.fields (l : Launch) : List (String × Datum) :=
  [("t", .ofNat l.time), ("argv", .ofList .text l.arguments), ("stdin", .ofText? l.stdin),
    ("cwd", .ofText? l.directory),
    ("env", .ofOption (fun vs => .table (vs.map fun v => (v.1, .text v.2))) l.environment)]

def Sighting.toDatum (s : Sighting) : Datum :=
  .list (.ofNat s.time :: s.words.map .text)

end Shellwright.Bench
