import Shellwright.Decimal
import Shellwright.Text.Blank
import Shellwright.Wire.Datum
/-!
# Checking data against a schema

A schema turns a value into a typed one or lists every problem, each with the path to the value at
fault.
-/

namespace Shellwright.Wire

/-- What is wrong with a value. -/
inductive Fault
  | missing
  | extra
  | notRecord
  | notTagged
  | tagMissing
  | tagUnknown
  | notLiteral
  | notMember
  | notText
  | notInt
  | intUnreadable
  | intFraction
  | intTooLong
  | notFinite
  | notBool
  | boolUnreadable
  | notList
  | keyNotText
  | tooSmall (strict : Bool)
  | rule (message : String)
  deriving DecidableEq, Repr

structure Problem where
  path : List String
  fault : Fault
  deriving DecidableEq, Repr

/-- A typed value, or the problems that stand against it. -/
inductive Checked (α : Type)
  | valid (value : α)
  | invalid (problems : List Problem)

namespace Checked

def problems {α : Type} : Checked α → List Problem
  | .valid _ => []
  | .invalid ps => ps

def map {α β : Type} (f : α → β) : Checked α → Checked β
  | .valid a => .valid (f a)
  | .invalid ps => .invalid ps

/-- Both values, or the problems of both. -/
def both {α β : Type} : Checked α → Checked β → Checked (α × β)
  | .valid a, .valid b => .valid (a, b)
  | a, b => .invalid (a.problems ++ b.problems)

/-- A further check, made only on a valid value. -/
def andThen {α β : Type} (c : Checked α) (f : α → Checked β) : Checked β :=
  match c with
  | .valid a => f a
  | .invalid ps => .invalid ps

def under {α : Type} (step : String) : Checked α → Checked α
  | .valid a => .valid a
  | .invalid ps => .invalid (ps.map fun p => { p with path := step :: p.path })

def fail {α : Type} (fault : Fault) : Checked α :=
  .invalid [⟨[], fault⟩]

/-- All values of a list, or the problems of all. -/
def all {α : Type} : List (Checked α) → Checked (List α)
  | [] => .valid []
  | c :: rest => (c.both (all rest)).map fun p => p.1 :: p.2

def toOption {α : Type} : Checked α → Option α
  | .valid a => some a
  | .invalid _ => none

end Checked

/-- How a value is read. -/
abbrev Schema (α : Type) := Datum → Checked α

/-- The entries of a table that is being read as a record. -/
abbrev Fields := List (String × Datum)

namespace Schema

def text : Schema String
  | .text s => .valid s
  | _ => .fail .notText

def isAsciiDigit (c : Char) : Bool :=
  '0' ≤ c && c ≤ '9'

/-- What follows a leading zero, where `last` has been read: further zeros and underscores are
skipped. A zero before a point is kept, and of a text that ends here its last character. -/
def afterZero (last : Char) : List Char → Option (List Char)
  | [] => some [last]
  | c :: rest =>
    if c == '0' || c == '_' then afterZero c rest
    else if c == '-' || isAsciiDigit c then some (c :: rest)
    else if c == '.' then some (last :: c :: rest)
    else none

/-- A number without the zeros that it starts with. -/
def withoutLeadingZeros : List Char → Option (List Char)
  | [] => none
  | c :: rest =>
    if c == '0' then afterZero c rest
    else if c == '-' || isAsciiDigit c then some (c :: rest)
    else none

/-- A plus sign may stand before a number and not before a minus sign. -/
def withoutPlus : List Char → Option (List Char)
  | '+' :: '-' :: _ => none
  | '+' :: rest => some rest
  | cs => some cs

/-- A number without the zeros after its point; a point with anything else behind it stays. -/
def withoutZeroFraction (cs : List Char) : List Char :=
  match cs.dropWhile (· != '.') with
  | _ :: z :: zeros =>
    if (z :: zeros).all (· == '0') then cs.takeWhile (· != '.') else cs
  | _ => cs

/-- Two underscores stand side by side. -/
def hasDoubleUnderscore : List Char → Bool
  | '_' :: '_' :: _ => true
  | _ :: rest => hasDoubleUnderscore rest
  | [] => false

/-- Single underscores within a number are left out; others stay. -/
def withoutUnderscores (cs : List Char) : List Char :=
  if cs.head? == some '_' || cs.getLast? == some '_' || hasDoubleUnderscore cs then cs
  else cs.filter (· != '_')

/-- Length of the number at the start of a text, its sign included: zero, or digits that do not start
with a zero. -/
def numberLength (cs : List Char) : Nat :=
  let sign := if cs.head? == some '-' then 1 else 0
  match cs.drop sign with
  | [] => 0
  | c :: rest =>
    if c == '0' then sign + 1
    else if isAsciiDigit c then sign + 1 + (rest.takeWhile isAsciiDigit).length
    else 0

/-- A whole number in its plain form. -/
def plainInt (cs : List Char) : Option Int :=
  if cs.isEmpty || numberLength cs != cs.length || Text.digitLimit < cs.length then none
  else
    let (negative, digits) := Text.splitSign cs
    let n := Text.digitsValue digits
    some (if negative then -(n : Int) else n)

/-- A whole number in a text: white space around it, a sign, leading zeros, single underscores and an
all-zero fraction are left out before it is read. -/
def readInt (s : String) : Checked Int :=
  if Text.digitLimit < numberLength s.toList then .fail .intTooLong
  else
    match (withoutPlus (Text.trimWhite s.toList)).bind withoutLeadingZeros with
    | none => .fail .intUnreadable
    | some cs =>
      match plainInt (withoutUnderscores (withoutZeroFraction cs)) with
      | some n => .valid n
      | none => .fail .intUnreadable

/-- Magnitude from which a float is no longer read as a whole number. -/
def wholeLimit : Int := 9223372036854775808

/-- A float without a fraction, as a whole number. -/
def wholeFloat (x : Float) : Checked Int :=
  if !Decimal.isFinite x then .fail .notFinite
  else match Decimal.wholeValue? x with
    | none => .fail .intFraction
    | some n => if -wholeLimit < n && n < wholeLimit then .valid n else .fail .intTooLong

/-- Integers, booleans as zero and one, floats without a fraction, and numbers in a text. -/
def int : Schema Int
  | .int n => .valid n
  | .bool b => .valid (if b then 1 else 0)
  | .float x => wholeFloat x
  | .text s => readInt s
  | _ => .fail .notInt

/-- A natural number of at least `low`. -/
def nat (low : Nat) (strict : Bool) : Schema Nat := fun d =>
  (int d).andThen fun n =>
    if n < low then .fail (.tooSmall strict) else .valid n.toNat

def trueWords : List String := ["1", "on", "t", "true", "y", "yes"]

def falseWords : List String := ["0", "off", "f", "false", "n", "no"]

/-- A whole number as a boolean; one that does not fit a word of 64 bits is no boolean at all. -/
def boolOfInt (n : Int) : Checked Bool :=
  if n = 0 then .valid false
  else if n = 1 then .valid true
  else if -wholeLimit ≤ n && n < wholeLimit then .fail .boolUnreadable
  else .fail .notBool

/-- Booleans, zero and one, and the usual words in any case. -/
def bool : Schema Bool
  | .bool b => .valid b
  | .int n => boolOfInt n
  | .float x =>
    match wholeFloat x with
    | .valid n => boolOfInt n
    | .invalid _ => .fail .notBool
  | .text s =>
    let word := String.ofList (s.toList.map Char.toLower)
    if trueWords.contains word then .valid true
    else if falseWords.contains word then .valid false
    else .fail .boolUnreadable
  | _ => .fail .notBool

/-- A member of an enumeration, by its exact label. -/
def member {α : Type} (ofLabel? : String → Option α) : Schema α
  | .text s =>
    match ofLabel? s with
    | some a => .valid a
    | none => .fail .notMember
  | _ => .fail .notMember

def optional {α : Type} (schema : Schema α) : Schema (Option α)
  | .null => .valid none
  | d => (schema d).map some

def list {α : Type} (schema : Schema α) : Schema (List α)
  | .list items => .all (items.mapIdx fun i d => (schema d).under (toString i))
  | _ => .fail .notList

/-- A record, read from the entries of a table. -/
def record {α : Type} (read : Fields → Checked α) : Schema α
  | .table entries => read entries
  | _ => .fail .notRecord

/-- One of several records, told apart by the text under `kind`. -/
def tagged {α : Type} (read : String → Option (Fields → Checked α)) : Schema α
  | .table entries =>
    match entries.lookup "kind" with
    | none => .fail .tagMissing
    | some (.text tag) =>
      match read tag with
      | some fields => (fields entries).under tag
      | none => .fail .tagUnknown
    | some _ => .fail .tagUnknown
  | _ => .fail .notTagged

end Schema

namespace Fields

def required {α : Type} (fields : Fields) (name : String) (schema : Schema α) : Checked α :=
  match List.lookup name fields with
  | some d => (schema d).under name
  | none => .invalid [⟨[name], .missing⟩]

def withDefault {α : Type} (fields : Fields) (name : String) (schema : Schema α) (value : α) :
    Checked α :=
  match List.lookup name fields with
  | some d => (schema d).under name
  | none => .valid value

/-- A field that can hold nothing but `value`. -/
def literal (fields : Fields) (name value : String) : Checked Unit :=
  match List.lookup name fields with
  | none => .valid ()
  | some (.text s) => if s = value then .valid () else .invalid [⟨[name], .notLiteral⟩]
  | some _ => .invalid [⟨[name], .notLiteral⟩]

/-- Fields that the record does not know. -/
def onlyKnown (fields : Fields) (known : List String) : Checked Unit :=
  match fields.filter fun f => !known.contains f.1 with
  | [] => .valid ()
  | unknown => .invalid (unknown.map fun f => ⟨[f.1], .extra⟩)

end Fields

end Shellwright.Wire
