/-!
# Data

Values of configuration files and of records before they are checked.
-/

namespace Shellwright

/-- A value without a schema. `moment` is a date, a time or both, by the text that describes it. -/
inductive Datum
  | null
  | bool (value : Bool)
  | int (value : Int)
  | float (value : Float)
  | text (value : String)
  | list (items : List Datum)
  | table (entries : List (String × Datum))
  | moment (description : String)
  deriving Inhabited

namespace Datum

def entries? : Datum → Option (List (String × Datum))
  | .table entries => some entries
  | _ => none

/-- The value under a key of a table. -/
def get? (d : Datum) (key : String) : Option Datum :=
  match d with
  | .table entries => entries.lookup key
  | _ => none

def ofOption {α : Type} (f : α → Datum) : Option α → Datum
  | none => .null
  | some a => f a

def ofList {α : Type} (f : α → Datum) (items : List α) : Datum :=
  .list (items.map f)

def ofNat (n : Nat) : Datum :=
  .int n

def ofText? : Option String → Datum :=
  ofOption .text

end Datum

end Shellwright

/-!
## Lenient access to data

What is missing or of another kind counts as null, as empty, as zero or as false.
-/

namespace Shellwright.Datum

def text? : Datum → Option String
  | .text s => some s
  | _ => none

def int? : Datum → Option Int
  | .int n => some n
  | _ => none

def asText (d : Datum) : String :=
  d.text?.getD ""

def asInt (d : Datum) : Int :=
  d.int?.getD 0

def asNat (d : Datum) : Nat :=
  d.asInt.toNat

def asList : Datum → List Datum
  | .list items => items
  | _ => []

def asTexts (d : Datum) : List String :=
  d.asList.map asText

def asEntries (d : Datum) : List (String × Datum) :=
  d.entries?.getD []

/-- Empty values, zero and null are false. -/
def truth : Datum → Bool
  | .null => false
  | .bool b => b
  | .int n => n != 0
  | .float x => x != 0.0
  | .text s => !s.isEmpty
  | .list items => !items.isEmpty
  | .table entries => !entries.isEmpty
  | .moment _ => true

/-- The value under a key, null when there is none. -/
def field (d : Datum) (key : String) : Datum :=
  (d.get? key).getD .null

def textAt (d : Datum) (key : String) : String :=
  (d.field key).asText

def textAt? (d : Datum) (key : String) : Option String :=
  (d.field key).text?

def textOr (d : Datum) (key fallback : String) : String :=
  (d.textAt? key).getD fallback

def natAt (d : Datum) (key : String) : Nat :=
  (d.field key).asNat

def listAt (d : Datum) (key : String) : List Datum :=
  (d.field key).asList

def textsAt (d : Datum) (key : String) : List String :=
  (d.field key).asTexts

def flagOr (d : Datum) (key : String) (fallback : Bool) : Bool :=
  ((d.get? key).map truth).getD fallback

def flagAt (d : Datum) (key : String) : Bool :=
  d.flagOr key false

end Shellwright.Datum
