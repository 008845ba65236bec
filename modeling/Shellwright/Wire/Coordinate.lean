import Shellwright.Decimal
import Shellwright.Position
import Shellwright.Text.Blank
import Shellwright.Wire.Datum
/-!
# Numbers in data

What values stand for where a number is asked for.
-/

/-!
## Numbers in data

The floats that numbers and truth values stand for.
-/

namespace Shellwright.Wire

/-- Why a value stands for no number. -/
inductive NumberError
  | missing
  | wrongKind
  /-- A text where a number is needed, or one that writes none. -/
  | unreadable
  | tooLarge
  deriving DecidableEq, Repr

/-- The float that a value stands for; a text stands for none. -/
def number : Datum → Except NumberError Float
  | .float x => .ok x
  | .bool b => .ok (if b then 1.0 else 0.0)
  | .int n => ((Decimal.ofInt? n).map Except.ok).getD (.error .tooLarge)
  | .text _ => .error .unreadable
  | _ => .error .wrongKind

/-- The value under a key, which has to be there. -/
def entry (d : Datum) (key : String) : Except NumberError Datum :=
  ((d.get? key).map Except.ok).getD (.error .missing)

end Shellwright.Wire

/-!
## Coordinates in data

A coordinate counted from one may be a number of any kind or the text of a whole number.
-/

namespace Shellwright.Wire

/-- Why a value is no coordinate. -/
inductive CoordinateError
  | wrongKind
  | unreadable
  | infinite
  deriving DecidableEq, Repr

/-- The whole number that a value stands for; a fraction is cut off. -/
def wholeNumber : Datum → Except CoordinateError Int
  | .int n => .ok n
  | .bool b => .ok (if b then 1 else 0)
  | .text s => ((Text.readInt s).map Except.ok).getD (.error .unreadable)
  | .float x =>
    match Decimal.Binary.ofFloat x with
    | .finite negative m e =>
      let (num, den) := Decimal.ratio m e
      let n : Int := (num / den : Nat)
      .ok (if negative then -n else n)
    | .infinite _ => .error .infinite
    | .notANumber => .error .unreadable
  | _ => .error .wrongKind

/-- A coordinate counted from one, counted from zero. -/
def coordinate (d : Datum) : Except CoordinateError Nat :=
  (wholeNumber d).map zeroBased

end Shellwright.Wire
