import Shellwright.Text.Blank
/-!
# Floats and decimals

How floats are written as decimal numbers and read from them.
-/

/-!
## Binary fractions

A float as a whole number times a power of two, and quotients rounded to the nearest whole number.
-/

namespace Shellwright.Decimal

/-- The value of a float: `mantissa * 2 ^ exponent` with a sign, or no finite number. -/
inductive Binary
  | finite (negative : Bool) (mantissa : Nat) (exponent : Int)
  | infinite (negative : Bool)
  | notANumber

def Binary.ofFloat (x : Float) : Binary :=
  let bits := x.toBits.toNat
  let negative := bits / Nat.pow 2 63 == 1
  let exponent : Nat := bits / Nat.pow 2 52 % Nat.pow 2 11
  let fraction : Nat := bits % Nat.pow 2 52
  if exponent = 2047 then if fraction = 0 then .infinite negative else .notANumber
  else if exponent = 0 then .finite negative fraction (-1074)
  else .finite negative (fraction + Nat.pow 2 52) ((exponent : Int) - 1075)

/-- Numerator and denominator of `m * 2 ^ e`. -/
def ratio (m : Nat) (e : Int) : Nat × Nat :=
  if 0 ≤ e then (m * Nat.pow 2 e.toNat, 1) else (m, Nat.pow 2 (-e).toNat)

/-- The whole number nearest to a quotient; a tie goes to the even neighbour. -/
def roundDiv (num den : Nat) : Nat :=
  let floor := num / den
  let rest := 2 * (num % den)
  if rest < den then floor
  else if den < rest then floor + 1
  else floor + floor % 2

/-- A float that is a whole number, as an integer. -/
def wholeValue? (x : Float) : Option Int :=
  match Binary.ofFloat x with
  | .finite negative m e =>
    let (num, den) := ratio m e
    if num % den = 0 then
      some (if negative then -((num / den : Nat) : Int) else (num / den : Nat))
    else none
  | _ => none

def isFinite (x : Float) : Bool :=
  match Binary.ofFloat x with
  | .finite .. => true
  | _ => false

end Shellwright.Decimal

/-!
## Fixed places

A float with a given number of decimal places. The stored binary value is what is rounded, and only a
value exactly between two neighbours counts as a tie.
-/

namespace Shellwright.Decimal

/-- Digits of `n`, at least `width` of them. -/
def paddedDigits (n width : Nat) : List Char :=
  let ds := Nat.toDigits 10 n
  List.replicate (width - ds.length) '0' ++ ds

/-- How many units of the last of `places` decimal places the value comes to. -/
def units (m : Nat) (e : Int) (places : Nat) : Nat :=
  let (num, den) := ratio m e
  roundDiv (num * Nat.pow 10 places) den

def fixed (places : Nat) (x : Float) : String :=
  match Binary.ofFloat x with
  | .notANumber => "nan"
  | .infinite negative => if negative then "-inf" else "inf"
  | .finite negative m e =>
    let ds := paddedDigits (units m e places) (places + 1)
    let whole := ds.take (ds.length - places)
    let rest := ds.drop (ds.length - places)
    String.ofList ((if negative then ['-'] else []) ++ whole ++
      (if places = 0 then [] else '.' :: rest))

/-- The float nearest to the value rounded to `places` decimal places. -/
def roundTo (places : Nat) (x : Float) : Float :=
  match Binary.ofFloat x with
  | .finite negative m e =>
    let y := Float.ofScientific (units m e places) true places
    if negative then -y else y
  | _ => x

end Shellwright.Decimal

/-!
## Shortest decimal text

The fewest digits that read back as the same float, the nearest such number among them, laid out
without an exponent when the decimal point falls within the digits or near them.
-/

namespace Shellwright.Decimal

/-- The real numbers that read as one positive float, over a common denominator. -/
structure Interval where
  low : Nat
  value : Nat
  high : Nat
  den : Nat
  closed : Bool

/-- Halfway to the neighbours of `m * 2 ^ e`; the lower neighbour is nearer at a power of two. -/
def Interval.ofBinary (m : Nat) (e : Int) : Interval :=
  let (num, den) := ratio m e
  let unit := (ratio 1 e).1
  let gap := if m = Nat.pow 2 52 && e != -1074 then unit else 2 * unit
  ⟨4 * num - gap, 4 * num, 4 * num + 2 * unit, 4 * den, m % 2 == 0⟩

/-- `c * 10 ^ g` reads as the float of the interval. -/
def Interval.holds (i : Interval) (c : Nat) (g : Int) : Bool :=
  let scale := Nat.pow 10 (-g).toNat
  let x := c * Nat.pow 10 g.toNat * i.den
  if i.closed then i.low * scale ≤ x && x ≤ i.high * scale
  else i.low * scale < x && x < i.high * scale

/-- Distance of `c * 10 ^ g` from the value, in units that depend on `g` only. -/
def Interval.distance (i : Interval) (c : Nat) (g : Int) : Nat :=
  let x := c * Nat.pow 10 g.toNat * i.den
  let v := i.value * Nat.pow 10 (-g).toNat
  (x - v) + (v - x)

/-- Number of times ten must be multiplied in before the quotient reaches one. -/
def leadingZeros (num den : Nat) : (fuel : Nat) → Nat
  | 0 => 0
  | fuel + 1 => if den ≤ num then 0 else leadingZeros (num * 10) den fuel + 1

/-- The exponent `k` with `10 ^ (k - 1) ≤ num / den < 10 ^ k`. -/
def magnitude (num den : Nat) : Int :=
  if den ≤ num then (Nat.toDigits 10 (num / den)).length
  else 1 - (leadingZeros num den 400 : Int)

/-- The first number of digits, from `n` on, with which a decimal falls into the interval. -/
def Interval.search (i : Interval) (k : Int) : (n fuel : Nat) → Nat × Int
  | n, 0 => (i.value / i.den, k - n)
  | n, fuel + 1 =>
    let g := k - n
    let c := i.value * Nat.pow 10 (-g).toNat / (i.den * Nat.pow 10 g.toNat)
    match i.holds c g, i.holds (c + 1) g with
    | true, true => if i.distance c g ≤ i.distance (c + 1) g then (c, g) else (c + 1, g)
    | true, false => (c, g)
    | false, true => (c + 1, g)
    | false, false => i.search k (n + 1) fuel

/-- Digits and the place of the decimal point: the text is `0.digits * 10 ^ point`. -/
def digitsAndPoint (m : Nat) (e : Int) : List Char × Int :=
  if m = 0 then (['0'], 1)
  else
    let i := Interval.ofBinary m e
    let (c, g) := i.search (magnitude i.value i.den) 1 17
    let ds := Nat.toDigits 10 c
    let kept := (ds.reverse.dropWhile (· == '0')).reverse
    (kept, g + ds.length)

/-- Positional from `0.0001` up to sixteen digits before the point, and always with a digit after it;
otherwise with an exponent of at least two digits. -/
def layout (ds : List Char) (point : Int) : List Char :=
  if -4 < point && point ≤ 16 then
    if point ≤ 0 then '0' :: '.' :: List.replicate (-point).toNat '0' ++ ds
    else
      let p := point.toNat
      let rest := ds.drop p
      ds.take p ++ List.replicate (p - ds.length) '0' ++ '.' :: (if rest.isEmpty then ['0'] else rest)
  else
    let exponent := point - 1
    ds.take 1 ++ (if ds.length ≤ 1 then [] else '.' :: ds.drop 1) ++ 'e' ::
      (if exponent < 0 then '-' else '+') :: paddedDigits exponent.natAbs 2

def shortest (x : Float) : String :=
  match Binary.ofFloat x with
  | .notANumber => "nan"
  | .infinite negative => if negative then "-inf" else "inf"
  | .finite negative m e =>
    let (ds, point) := digitsAndPoint m e
    String.ofList ((if negative then ['-'] else []) ++ layout ds point)

end Shellwright.Decimal

/-!
## Reading floats

The float nearest to a decimal number, and the floats that texts and whole numbers stand for.
-/

namespace Shellwright.Decimal

/-- The float nearest to `n * 10 ^ e`; exponents beyond the range of floats are cut short. -/
def nearest (n : Nat) (e : Int) : Float :=
  let size : Int := (Nat.toDigits 10 n).length + e
  if n = 0 || size < -400 then 0.0
  else if 400 < size then 1.0 / 0.0
  else Float.ofScientific n (e < 0) e.natAbs

def signed (negative : Bool) (x : Float) : Float :=
  if negative then -x else x

/-- The float nearest to a whole number, unless the number is beyond all floats. -/
def ofInt? (n : Int) : Option Float :=
  let x := nearest n.natAbs 0
  if x == 1.0 / 0.0 then none else some (signed (n < 0) x)

/-- The number that digits with an optional point and exponent stand for; single underscores may
stand between two digits. -/
def readDecimal (cs : List Char) : Option Float := do
  let mantissa := cs.takeWhile fun c => c != 'e' && c != 'E'
  let whole := mantissa.takeWhile (· != '.')
  let part (ds : List Char) : Option (List Char) := if ds.isEmpty then some [] else Text.groupedDigits ds
  let ws ← part whole
  let fs ← part ((mantissa.drop whole.length).drop 1)
  if ws.isEmpty && fs.isEmpty then none
  let scale : Int ← match cs.drop mantissa.length with
    | [] => some 0
    | _ :: exponent =>
      let (negative, ds) := Text.splitSign exponent
      (Text.groupedDigits ds).map fun ds =>
        if negative then -(Text.digitsValue ds : Int) else Text.digitsValue ds
  return nearest (Text.digitsValue (ws ++ fs)) (scale - fs.length)

/-- Small letters for capital ones, within ASCII. -/
def smallLetter (c : Char) : Char :=
  if 'A' ≤ c && c ≤ 'Z' then Char.ofNat (c.toNat + 32) else c

/-- A float with surrounding white space and a sign, also one that is no finite number. -/
def readFloat (s : String) : Option Float :=
  let (negative, body) := Text.splitSign (Text.trimWhite s.toList)
  (match String.ofList (body.map smallLetter) with
    | "inf" => some (1.0 / 0.0)
    | "infinity" => some (1.0 / 0.0)
    | "nan" => some (0.0 / 0.0)
    | _ => readDecimal body).map (signed negative)

end Shellwright.Decimal
