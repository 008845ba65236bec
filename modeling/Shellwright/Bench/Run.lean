import Shellwright.Bench.Answers
/-!
# Running a bench

Everything in the queue happens in order, and when the queue is empty the clock jumps to the next timer.
-/

namespace Shellwright.Bench

/-- The next thing that happens now. -/
def next? (b : Bench) : Option Bench :=
  match b.urgent, b.queue with
  | m :: rest, _ => some ({ b with urgent := rest }.handle m)
  | [], m :: rest => some ({ b with queue := rest }.handle m)
  | [], [] => none

/-- The time of the next timer. -/
def nextDue? (b : Bench) : Option Nat :=
  (b.timers.map Timer.due).min?

/-- Move the clock to `time`; the timers that are due enter the queue together. -/
def jump (b : Bench) (time : Nat) : Bench :=
  let due := b.timers.filter (·.due ≤ time)
  { b with
    now := max b.now time
    timers := b.timers.filter (time < ·.due)
    queue := b.queue ++ due.map Timer.message }

/-- Turns after which a bench is given up that does not come to rest. -/
def patience : Nat := 1000000

/-- Everything that happens now, for at most `fuel` turns. -/
def settleFor : (fuel : Nat) → Bench → Bench
  | 0, b => b
  | fuel + 1, b =>
    match b.next? with
    | some b => settleFor fuel b
    | none => b

/-- Everything that happens without the clock. -/
def settle (b : Bench) : Bench :=
  settleFor patience b

/-- Let the clock run until `stop` holds or nothing is left to happen. -/
def runUntil (stop : Bench → Bool) : (fuel : Nat) → Bench → Bench
  | 0, b => b
  | fuel + 1, b =>
    if stop b then b
    else match b.next? with
      | some b => runUntil stop fuel b
      | none =>
        match b.nextDue? with
        | some time => runUntil stop fuel (b.jump time)
        | none => b

/-- Let the clock run up to a time, with all that happens then. -/
def advanceTo (time : Nat) : (fuel : Nat) → Bench → Bench
  | 0, b => b
  | fuel + 1, b =>
    match b.next? with
    | some b => advanceTo time fuel b
    | none =>
      match b.nextDue? with
      | some due => if due ≤ time then advanceTo time fuel (b.jump due) else b.jump time
      | none => b.jump time

def advance (b : Bench) (span : Nat) : Bench :=
  (advanceTo (b.now + span) patience b).settle

/-- How a call has ended, when it has. -/
def finish? (b : Bench) (n : Nat) : Option Finish :=
  b.finished.find? (·.call == n)

/-- Make a call and let the clock run until it has ended. -/
def await (b : Bench) (event : Nat → Workspace.Event) : Bench × Option Finish :=
  let n := b.calls
  let b := { b with calls := n + 1 }.tell (event n)
  let b := runUntil (fun b => (b.finish? n).isSome) patience b
  (b, b.finish? n)

/-- Make a call that goes on beside what the host does next. -/
def start (b : Bench) (event : Nat → Workspace.Event) : Bench × Nat :=
  ({ b with calls := b.calls + 1 }.post (.workspace (event b.calls)), b.calls)

def Finish.isRaised (f : Finish) : Bool :=
  match f.outcome with
  | .raised _ => true
  | _ => false

/-- Make calls at the same time and let the clock run until all have ended or one has failed. -/
def awaitAll (b : Bench) (events : List (Nat → Workspace.Event)) : Bench × List (Option Finish) :=
  let (b, ns) := events.foldl (fun (b, ns) event =>
    let (b, n) := b.start event
    (b, ns ++ [n])) (b, [])
  let b := runUntil (fun b => ns.all (fun n => (b.finish? n).isSome) ||
    ns.any fun n => (b.finish? n).any Finish.isRaised) patience b
  (b, ns.map b.finish?)

/-- Run a command for the host and let the clock run until it has ended. -/
def runCommand (b : Bench) (invocation : Invocation Token) (metric : Option Metric) : Bench :=
  runUntil (fun b => b.result.isSome) patience (execute conclude b invocation .host metric)

end Shellwright.Bench
