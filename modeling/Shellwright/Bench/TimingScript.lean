import Shellwright.Timing
import Shellwright.Wire.Datum
import Shellwright.Wire.Coordinate
/-!
# Scripts about timings

A script records durations, or times blocks on a clock that counts seconds.
-/

namespace Shellwright.Bench

/-- The duration that a value stands for, in milliseconds; a text may write a number. -/
def duration : Datum → Except Wire.NumberError Float
  | .text s => ((Decimal.readFloat s).map Except.ok).getD (.error .unreadable)
  | d => Wire.number d

/-- The seconds that a block takes which takes this many milliseconds. -/
def seconds : Datum → Except Wire.NumberError Float
  | .float x => .ok (x / 1000.0)
  | .bool b => .ok (if b then 0.001 else 0.0)
  | .int n =>
    let x := Decimal.signed (n < 0) (Decimal.nearest n.natAbs (-3))
    if Decimal.isFinite x then .ok x else .error .tooLarge
  | _ => .error .wrongKind

/-- A stopwatch and the reading of its clock. -/
structure TimingScene where
  stopwatch : Stopwatch := {}
  now : Float := 0.0

/-- What a step of a script shows. -/
inductive TimingReply
  | nothing
  | raised
  | summary (summary : Option TimingSummary)

def TimingScene.step (s : TimingScene) (d : Datum) : Except Wire.NumberError (TimingScene × TimingReply) :=
  let name := d.textAt "name"
  match d.textAt "do" with
  | "record" => do
    return ({ s with stopwatch := s.stopwatch.record name (← duration (d.field "ms")) }, .nothing)
  | "timer" => do
    let later := s.now + (← seconds (d.field "ms"))
    return (⟨s.stopwatch.recordSpan name s.now later, later⟩,
      if d.flagAt "raise" then .raised else .nothing)
  | "reset" => return ({ s with stopwatch := s.stopwatch.reset }, .nothing)
  | _ => return (s, .summary (s.stopwatch.summaries.get? name))

end Shellwright.Bench
