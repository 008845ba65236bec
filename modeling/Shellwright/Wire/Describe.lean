import Shellwright.Decimal
import Shellwright.Text.Blank
import Shellwright.Text.Quoted
import Shellwright.Wire.Datum
/-!
# Data in words

The text in which a value is shown to the user who wrote it.
-/

namespace Shellwright.Datum

mutual

/-- A value on one line, with its texts in quotes. -/
def describe : Datum → String
  | .null => "None"
  | .bool true => "True"
  | .bool false => "False"
  | .int n => toString n
  | .float x => Decimal.shortest x
  | .text s => Text.quoted s
  | .list items => "[" ++ ", ".intercalate (describeItems items) ++ "]"
  | .table entries => "\x7b" ++ ", ".intercalate (describeEntries entries) ++ "\x7d"
  | .moment description => description

def describeItems : List Datum → List String
  | [] => []
  | d :: rest => describe d :: describeItems rest

def describeEntries : List (String × Datum) → List String
  | [] => []
  | (key, d) :: rest => (Text.quoted key ++ ": " ++ describe d) :: describeEntries rest

end

mutual

/-- No number in a value has more digits than can be shown. -/
def isShort : Datum → Bool
  | .int n => n.natAbs < Nat.pow 10 Text.digitLimit
  | .list items => itemsShort items
  | .table entries => entriesShort entries
  | _ => true

def itemsShort : List Datum → Bool
  | [] => true
  | d :: rest => isShort d && itemsShort rest

def entriesShort : List (String × Datum) → Bool
  | [] => true
  | (_, d) :: rest => isShort d && entriesShort rest

end

/-- A value as plain text: a text stands for itself. -/
def plain : Datum → String
  | .text s => s
  | d => describe d

end Shellwright.Datum
