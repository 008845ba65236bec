import Shellwright.Keyed
import Shellwright.Wire.Decode
import Shellwright.Wire.Describe
/-!
# Tables from pairs

A list of pairs can stand for a table: each pair gives a key and the value under it. Any value that
has two parts is a pair.
-/

namespace Shellwright.Wire

/-- Why a value does not stand for a table. -/
inductive PairError
  /-- Something that has no parts stands where parts are needed, or has parts where a key is needed. -/
  | wrongKind
  | notTwoParts
  deriving DecidableEq, Repr

/-- A table whose keys need not be texts: the entries under texts, and the other keys. -/
structure Entries where
  fields : Fields := []
  otherKeys : List Datum := []

namespace Entries

/-- The items of a list, the keys of a table, the characters of a text. -/
def parts? : Datum → Option (List Datum)
  | .list items => some items
  | .table entries => some (entries.map fun e => .text e.1)
  | .text s => some (s.toList.map fun c => .text (String.singleton c))
  | _ => none

def isKey : Datum → Bool
  | .list _ => false
  | .table _ => false
  | _ => true

/-- A key by the number or the word that it stands for: equal keys have equal names. -/
def keyName : Datum → String
  | .bool b => if b then "1" else "0"
  | .float x =>
    match Decimal.wholeValue? x with
    | some n => toString n
    | none => Datum.describe (.float x)
  | d => d.plain

/-- A key as it is shown in the path of a problem. -/
def keyStep : Datum → String
  | .bool b => if b then "1" else "0"
  | d => d.plain

def insert (e : Entries) (key value : Datum) : Entries :=
  match key with
  | .text name => { e with fields := Keyed.put e.fields name value }
  | key =>
    if e.otherKeys.any fun k => keyName k == keyName key then e
    else { e with otherKeys := e.otherKeys ++ [key] }

/-- Take the pairs of a list into a table, up to the first that is none. -/
def addPairs (e : Entries) : List Datum → Except PairError Entries
  | [] => .ok e
  | d :: rest =>
    match parts? d with
    | none => .error .wrongKind
    | some [key, value] => if isKey key then addPairs (e.insert key value) rest else .error .wrongKind
    | some _ => .error .notTwoParts

/-- A table as it is, and any other value with parts as a list of pairs. -/
def ofDatum : Datum → Except PairError Entries
  | .table entries => .ok ⟨entries, []⟩
  | d =>
    match parts? d with
    | none => .error .wrongKind
    | some items => ({} : Entries).addPairs items

/-- Keys that are no texts, each a problem. -/
def keyProblems (e : Entries) : Checked Unit :=
  match e.otherKeys with
  | [] => .valid ()
  | keys => .invalid (keys.map fun k => ⟨[keyStep k], .keyNotText⟩)

end Entries

end Shellwright.Wire
