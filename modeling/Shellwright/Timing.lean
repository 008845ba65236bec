import Shellwright.Decimal
import Shellwright.Keyed
/-!
# Timings

Durations by the name of what was timed, in milliseconds.
-/

namespace Shellwright

/-- Statistics of the durations under one name. -/
structure TimingSummary where
  count : Nat := 0
  total : Float := 0.0
  least : Float := 1.0 / 0.0
  most : Float := 0.0

namespace TimingSummary

def mean (s : TimingSummary) : Float :=
  if s.count = 0 then 0.0 else s.total / Float.ofNat s.count

def add (s : TimingSummary) (duration : Float) : TimingSummary :=
  ⟨s.count + 1, s.total + duration, if duration < s.least then duration else s.least,
    if s.most < duration then duration else s.most⟩

/-- Decimal places of a duration that is shown. -/
def places : Nat := 3

def shownMean (s : TimingSummary) : Float :=
  Decimal.roundTo places s.mean

def shownLeast (s : TimingSummary) : Float :=
  Decimal.roundTo places (if s.count = 0 then 0.0 else s.least)

def shownMost (s : TimingSummary) : Float :=
  Decimal.roundTo places s.most

end TimingSummary

/-- Collects durations, unless it is switched off. -/
structure Stopwatch where
  enabled : Bool := true
  summaries : Keyed String TimingSummary := []

namespace Stopwatch

def record (w : Stopwatch) (name : String) (duration : Float) : Stopwatch :=
  if !w.enabled then w
  else { w with
    summaries := w.summaries.put name (((w.summaries.get? name).getD {}).add duration) }

/-- Milliseconds between two readings of a clock that counts seconds. -/
def elapsed (start stop : Float) : Float :=
  (stop - start) * 1000.0

/-- Record the time between two readings of a clock that counts seconds. -/
def recordSpan (w : Stopwatch) (name : String) (start stop : Float) : Stopwatch :=
  w.record name (elapsed start stop)

def reset (w : Stopwatch) : Stopwatch :=
  { w with summaries := [] }

/-- All summaries, sorted by name. -/
def snapshot (w : Stopwatch) : List (String × TimingSummary) :=
  w.summaries.mergeSort fun a b => a.1 ≤ b.1

end Stopwatch

/-- The names under which the library times its work. -/
inductive Metric
  | activation
  | check
  | format
  | formatterFormat
  | formatterCheck
  | linterCheck
  | diagnosis
  deriving DecidableEq, Repr

def Metric.label : Metric → String
  | .activation => "plugin.activate"
  | .check => "plugin.check"
  | .format => "plugin.format"
  | .formatterFormat => "shfmt.format"
  | .formatterCheck => "shfmt.check"
  | .linterCheck => "shellcheck.check"
  | .diagnosis => "diagnosis.run"

end Shellwright
