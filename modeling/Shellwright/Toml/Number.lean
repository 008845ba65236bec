import Shellwright.Decimal
import Shellwright.Toml.Scan
/-!
# Numbers and moments of a TOML document
-/

namespace Shellwright.Toml

/-- The longest run of digits in which single underscores stand between digits, without them. -/
def digitGroups (isDigit : Char → Bool) : List Char → List Char × List Char
  | '_' :: d :: rest =>
    if isDigit d then
      let (ds, rest) := digitGroups isDigit rest
      (d :: ds, rest)
    else ([], '_' :: d :: rest)
  | d :: rest =>
    if isDigit d then
      let (ds, rest) := digitGroups isDigit rest
      (d :: ds, rest)
    else ([], d :: rest)
  | [] => ([], [])

def isDecimal (c : Char) : Bool := '0' ≤ c && c ≤ '9'

def isHex (c : Char) : Bool := (hexValue? c).isSome

def isOctal (c : Char) : Bool := '0' ≤ c && c ≤ '7'

def isBinary (c : Char) : Bool := c == '0' || c == '1'

/-- Digits that begin with a digit, not with an underscore. -/
def digitsFrom (isDigit : Char → Bool) (cs : List Char) : Option (List Char × List Char) :=
  match cs with
  | d :: _ => if isDigit d then some (digitGroups isDigit cs) else none
  | [] => none

def valueIn (base : Nat) (ds : List Char) : Nat :=
  ds.foldl (fun n d => base * n + (hexValue? d).getD 0) 0

/-- A number with the base written in front. -/
def basedNumber : List Char → Option (Nat × List Char)
  | '0' :: 'x' :: rest => (digitsFrom isHex rest).map fun p => (valueIn 16 p.1, p.2)
  | '0' :: 'b' :: rest => (digitsFrom isBinary rest).map fun p => (valueIn 2 p.1, p.2)
  | '0' :: 'o' :: rest => (digitsFrom isOctal rest).map fun p => (valueIn 8 p.1, p.2)
  | _ => none

/-- The whole part of a decimal number: no zero stands before another digit. -/
def wholePart : List Char → Option (List Char × List Char)
  | '0' :: rest => some (['0'], rest)
  | cs => digitsFrom isDecimal cs

def fractionPart : List Char → Option (List Char × List Char)
  | '.' :: rest => digitsFrom isDecimal rest
  | _ => none

def exponentPart : List Char → Option ((Bool × List Char) × List Char)
  | c :: rest =>
    if c == 'e' || c == 'E' then
      let (negative, rest) := Text.splitSign rest
      (digitsFrom isDecimal rest).map fun p => ((negative, p.1), p.2)
    else none
  | [] => none

def decimalNumber (cs : List Char) : Option (Except TomlError Datum × List Char) := do
  let (negative, body) := Text.splitSign cs
  let (whole, rest) ← wholePart body
  let (fraction, rest) := (fractionPart rest).getD ([], rest)
  let (exponent, rest') := match exponentPart rest with
    | some (e, rest) => (some e, rest)
    | none => (none, rest)
  if fraction.isEmpty && exponent.isNone then
    match Text.readDigits whole with
    | some n => return (.ok (.int (if negative then -(n : Int) else n)), rest')
    | none => return (.error .tooManyDigits, rest')
  else
    let scale : Int := match exponent with
      | some (true, ds) => -(valueIn 10 ds : Int)
      | some (false, ds) => valueIn 10 ds
      | none => 0
    let x := Decimal.nearest (valueIn 10 (whole ++ fraction)) (scale - fraction.length)
    return (.ok (.float (Decimal.signed negative x)), rest')

/-- Two digits that make a number up to `high`. -/
def twoDigits (high : Nat) : List Char → Option (Nat × List Char)
  | a :: b :: rest =>
    let n := valueIn 10 [a, b]
    if isDecimal a && isDecimal b && n ≤ high then some (n, rest) else none
  | _ => none

def expect (c : Char) : List Char → Option (List Char)
  | d :: rest => if d == c then some rest else none
  | [] => none

/-- Hour, minute, second and microsecond. -/
structure ClockTime where
  hour : Nat
  minute : Nat
  second : Nat
  micro : Nat

def clockTime (cs : List Char) : Option (ClockTime × List Char) := do
  let (hour, cs) ← twoDigits 23 cs
  let (minute, cs) ← twoDigits 59 (← expect ':' cs)
  let (second, cs) ← twoDigits 59 (← expect ':' cs)
  match cs with
  | '.' :: rest =>
    match rest.takeWhile isDecimal with
    | [] => return (⟨hour, minute, second, 0⟩, cs)
    | ds =>
      let micro := valueIn 10 (ds.take 6 ++ List.replicate (6 - ds.length) '0')
      return (⟨hour, minute, second, micro⟩, rest.dropWhile isDecimal)
  | _ => return (⟨hour, minute, second, 0⟩, cs)

/-- Distance from universal time in minutes, eastward. -/
def zoneOffset (cs : List Char) : Option (Int × List Char) :=
  match cs with
  | c :: rest =>
    if c == 'Z' || c == 'z' then some (0, rest)
    else if c == '+' || c == '-' then do
      let (hours, rest) ← twoDigits 23 rest
      let (minutes, rest) ← twoDigits 59 (← expect ':' rest)
      let n : Int := 60 * hours + minutes
      return (if c == '-' then -n else n, rest)
    else none
  | [] => none

structure CalendarDate where
  year : Nat
  month : Nat
  day : Nat

/-- Four digits, two and two; the month and the day are in range, whether or not the day exists. -/
def calendarDate (cs : List Char) : Option (CalendarDate × List Char) := do
  let (century, cs) ← twoDigits 99 cs
  let (year, cs) ← twoDigits 99 cs
  let (month, cs) ← twoDigits 12 (← expect '-' cs)
  let (day, cs) ← twoDigits 31 (← expect '-' cs)
  if month = 0 || day = 0 then none
  return (⟨100 * century + year, month, day⟩, cs)

def daysIn (year month : Nat) : Nat :=
  if month = 2 then
    if (year % 4 == 0 && year % 100 != 0) || year % 400 == 0 then 29 else 28
  else if month = 4 || month = 6 || month = 9 || month = 11 then 30
  else 31

def CalendarDate.exists (d : CalendarDate) : Bool :=
  1 ≤ d.year && d.day ≤ daysIn d.year d.month

/-- Numbers in brackets after a name. -/
def call (name : String) (arguments : List String) : String :=
  name ++ "(" ++ ", ".intercalate arguments ++ ")"

/-- Seconds are left out when they and the microseconds are zero. -/
def ClockTime.parts (t : ClockTime) : List Nat :=
  if t.micro ≠ 0 then [t.hour, t.minute, t.second, t.micro]
  else if t.second ≠ 0 then [t.hour, t.minute, t.second]
  else [t.hour, t.minute]

def describeZone (minutes : Int) : String :=
  if minutes = 0 then "datetime.timezone.utc"
  else
    let delta :=
      if minutes < 0 then s!"days=-1, seconds={86400 + 60 * minutes}" else s!"seconds={60 * minutes}"
    call "datetime.timezone" [call "datetime.timedelta" [delta]]

def describeDate (d : CalendarDate) : String :=
  call "datetime.date" ([d.year, d.month, d.day].map toString)

def describeTime (t : ClockTime) : String :=
  call "datetime.time" (t.parts.map toString)

def describeMoment (d : CalendarDate) (t : ClockTime) (zone : Option Int) : String :=
  call "datetime.datetime" (([d.year, d.month, d.day] ++ t.parts).map toString ++
    match zone with
    | some minutes => ["tzinfo=" ++ describeZone minutes]
    | none => [])

/-- A date alone, or with a time of day after a letter T or a blank. -/
def moment (cs : List Char) : Option (Except TomlError Datum × List Char) := do
  let (date, rest) ← calendarDate cs
  let timed := match rest with
    | c :: rest => if c == 'T' || c == 't' || c == ' ' then clockTime rest else none
    | [] => none
  let (description, rest) := match timed with
    | none => (describeDate date, rest)
    | some (time, rest) =>
      match zoneOffset rest with
      | some (minutes, rest) => (describeMoment date time (some minutes), rest)
      | none => (describeMoment date time none, rest)
  return (if date.exists then .ok (.moment description) else .error .malformed, rest)

def timeOfDay (cs : List Char) : Option (Datum × List Char) :=
  (clockTime cs).map fun p => (.moment (describeTime p.1), p.2)

/-- Infinity and the number that is none, with an optional sign. -/
def specialFloat (cs : List Char) : Option (Datum × List Char) :=
  let (negative, body) := Text.splitSign cs
  match body with
  | 'i' :: 'n' :: 'f' :: rest => some (.float (Decimal.signed negative (1.0 / 0.0)), rest)
  | 'n' :: 'a' :: 'n' :: rest => some (.float (0.0 / 0.0), rest)
  | _ => none

end Shellwright.Toml
