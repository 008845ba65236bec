import Shellwright.Text.Lines
import Shellwright.Toml.Number
/-!
# TOML documents

A document is a series of statements: key and value, the header of a table, and the header of one more
table of an array. A table that was written out cannot be opened again, and inline tables and arrays
are closed for good.
-/

namespace Shellwright.Toml

/-- How a table came about: named on the way to another one, by dotted keys of the current section, or
by a header or the dotted keys of an earlier section. Only the last is closed. -/
inductive Origin
  | implied
  | dotted
  | declared
  deriving DecidableEq

/-- What stands under a key while a document is read. -/
inductive Node
  | value (d : Datum)
  | table (origin : Origin) (entries : List (String × Node))
  | tables (earlier : List (List (String × Node))) (last : List (String × Node))

abbrev Entries := List (String × Node)

namespace Entries

def get? (entries : Entries) (name : String) : Option Node :=
  List.lookup name entries

def put : Entries → String → Node → Entries
  | [], name, node => [(name, node)]
  | e :: rest, name, node => if e.1 = name then (name, node) :: rest else e :: put rest name node

end Entries

/-- Change the entries of the table at a path, making the tables on the way that are not there; the
last table of an array stands for the array. -/
def within (path : List String) (change : Entries → Except TomlError Entries) (entries : Entries) :
    Except TomlError Entries :=
  match path with
  | [] => change entries
  | name :: path =>
    match entries.get? name with
    | none => do return entries.put name (.table .implied (← within path change []))
    | some (.table origin inner) => do
      return entries.put name (.table origin (← within path change inner))
    | some (.tables earlier last) => do
      return entries.put name (.tables earlier (← within path change last))
    | some (.value _) => .error .malformed

/-- Put a value under a dotted key of the current section. -/
def assign (key : List String) (d : Datum) (entries : Entries) : Except TomlError Entries :=
  match key with
  | [] => .error .malformed
  | [name] =>
    match entries.get? name with
    | none => .ok (entries.put name (.value d))
    | some _ => .error .malformed
  | name :: key =>
    match entries.get? name with
    | none => do return entries.put name (.table .dotted (← assign key d []))
    | some (.table .declared _) => .error .malformed
    | some (.table _ inner) => do return entries.put name (.table .dotted (← assign key d inner))
    | some _ => .error .malformed

/-- A header opens a table that was not written out before. -/
def declareTable (name : String) (entries : Entries) : Except TomlError Entries :=
  match entries.get? name with
  | none => .ok (entries.put name (.table .declared []))
  | some (.table .declared _) => .error .malformed
  | some (.table _ inner) => .ok (entries.put name (.table .declared inner))
  | some _ => .error .malformed

/-- A double header adds one more table to an array of tables. -/
def addTable (name : String) (entries : Entries) : Except TomlError Entries :=
  match entries.get? name with
  | none => .ok (entries.put name (.tables [] []))
  | some (.tables earlier last) => .ok (entries.put name (.tables (earlier ++ [last]) []))
  | some _ => .error .malformed

mutual

/-- A new section closes the tables that dotted keys made. -/
def closeNode : Node → Node
  | .value d => .value d
  | .table .dotted entries => .table .declared (closeEntries entries)
  | .table origin entries => .table origin (closeEntries entries)
  | .tables earlier last => .tables earlier (closeEntries last)

def closeEntries : List (String × Node) → List (String × Node)
  | [] => []
  | (name, node) :: rest => (name, closeNode node) :: closeEntries rest

end

mutual

def nodeDatum : Node → Datum
  | .value d => d
  | .table _ entries => .table (entriesData entries)
  | .tables earlier last => .list (tablesData earlier ++ [.table (entriesData last)])

def entriesData : List (String × Node) → List (String × Datum)
  | [] => []
  | (name, node) :: rest => (name, nodeDatum node) :: entriesData rest

def tablesData : List (List (String × Node)) → List Datum
  | [] => []
  | entries :: rest => .table (entriesData entries) :: tablesData rest

end

/-- Values that are neither arrays nor inline tables. -/
def scalar (cs : List Char) : Except TomlError (Datum × List Char) :=
  let fromText (p : List Char × List Char) : Datum × List Char := (.text (String.ofList p.1), p.2)
  match cs with
  | '"' :: '"' :: '"' :: rest => (basicLines rest).map fromText
  | '"' :: rest => (basicLine rest).map fromText
  | '\'' :: '\'' :: '\'' :: rest => (literalLines rest).map fromText
  | '\'' :: rest => (literalText rest).map fromText
  | 't' :: 'r' :: 'u' :: 'e' :: rest => .ok (.bool true, rest)
  | 'f' :: 'a' :: 'l' :: 's' :: 'e' :: rest => .ok (.bool false, rest)
  | _ =>
    match moment cs with
    | some (r, rest) => r.map (·, rest)
    | none =>
      match timeOfDay cs with
      | some p => .ok p
      | none =>
        match basedNumber cs with
        | some (n, rest) => .ok (.int n, rest)
        | none =>
          match decimalNumber cs with
          | some (r, rest) => r.map (·, rest)
          | none =>
            match specialFloat cs with
            | some p => .ok p
            | none => .error .malformed

/-- The room that the value of a statement has for nesting. -/
def nestingRoom : Nat := 986

/-- What an array takes of the room for nesting. -/
def arrayRoom : Nat := 2

/-- What an inline table takes of the room for nesting. -/
def inlineTableRoom : Nat := 3

/-- The room that is left after a part of it was taken. -/
def takeRoom (taken room : Nat) : Except TomlError Nat :=
  if taken ≤ room then .ok (room - taken) else .error .nestedTooDeeply

mutual

/-- A value; arrays and inline tables have to fit into the room for nesting. -/
def value (room : Nat) (cs : List Char) : (fuel : Nat) → Except TomlError (Datum × List Char)
  | 0 => .error .malformed
  | fuel + 1 =>
    match cs with
    | '[' :: rest => do
      let room ← takeRoom arrayRoom room
      let rest ← skipArraySpace rest (rest.length + 1)
      match rest with
      | ']' :: rest => return (.list [], rest)
      | _ => arrayItems room [] rest fuel
    | '\x7b' :: rest => do
      let room ← takeRoom inlineTableRoom room
      match skipSpace rest with
      | '\x7d' :: rest => .ok (.table [], rest)
      | rest => inlineEntries room [] rest fuel
    | _ => scalar cs

/-- The items of an array from one item on; `held` are those before it, nearest first. -/
def arrayItems (room : Nat) (held : List Datum) (cs : List Char) :
    (fuel : Nat) → Except TomlError (Datum × List Char)
  | 0 => .error .malformed
  | fuel + 1 => do
    let (d, rest) ← value room cs fuel
    let rest ← skipArraySpace rest (rest.length + 1)
    match rest with
    | ']' :: rest => return (.list (d :: held).reverse, rest)
    | ',' :: rest =>
      let rest ← skipArraySpace rest (rest.length + 1)
      match rest with
      | ']' :: rest => return (.list (d :: held).reverse, rest)
      | _ => arrayItems room (d :: held) rest fuel
    | _ => .error .malformed

/-- The entries of an inline table from one entry on. -/
def inlineEntries (room : Nat) (held : Entries) (cs : List Char) :
    (fuel : Nat) → Except TomlError (Datum × List Char)
  | 0 => .error .malformed
  | fuel + 1 => do
    let (parts, rest) ← key cs
    match rest with
    | '=' :: rest =>
      let (d, rest) ← value room (skipSpace rest) fuel
      let held ← assign parts d held
      match skipSpace rest with
      | '\x7d' :: rest => return (.table (entriesData held), rest)
      | ',' :: rest => inlineEntries room held (skipSpace rest) fuel
      | _ => .error .malformed
    | _ => .error .malformed

end

/-- A document in the course of reading: its entries and the path of the current section. -/
structure Draft where
  entries : Entries := []
  current : List String := []

/-- A statement that begins with a key. -/
def keyStatement (draft : Draft) (cs : List Char) : Except TomlError (Draft × List Char) := do
  let (parts, rest) ← key cs
  match rest with
  | '=' :: rest =>
    let rest := skipSpace rest
    let (d, rest) ← value nestingRoom rest (2 * rest.length + 2)
    return ({ draft with entries := ← within draft.current (assign parts d) draft.entries }, rest)
  | _ => .error .malformed

/-- A header after its opening brackets, `closing` being the brackets that end it. -/
def headerStatement (opening : String → Entries → Except TomlError Entries) (closing : List Char)
    (draft : Draft) (cs : List Char) : Except TomlError (Draft × List Char) := do
  let (parts, rest) ← key (skipSpace cs)
  let closed := closeEntries draft.entries
  let entries ← within parts.dropLast (opening (parts.getLastD "")) closed
  if closing.isPrefixOf rest then return (⟨entries, parts⟩, rest.drop closing.length)
  else .error .malformed

/-- One statement, which may be empty, without the end of its line. -/
def statement (draft : Draft) (cs : List Char) : Except TomlError (Draft × List Char) :=
  match cs with
  | [] => .ok (draft, [])
  | '\n' :: _ => .ok (draft, cs)
  | '#' :: _ => .ok (draft, cs)
  | '[' :: '[' :: rest => headerStatement addTable [']', ']'] draft rest
  | '[' :: rest => headerStatement declareTable [']'] draft rest
  | _ => keyStatement draft cs

/-- The statements of a document; each ends with its line. -/
def statements (draft : Draft) (cs : List Char) : (fuel : Nat) → Except TomlError Draft
  | 0 => .error .malformed
  | fuel + 1 => do
    let (draft, rest) ← statement draft (skipSpace cs)
    let rest ← skipComment (skipSpace rest)
    match rest with
    | [] => return draft
    | '\n' :: rest => statements draft rest fuel
    | _ => .error .malformed

/-- The table of a whole document. -/
def parse (text : String) : Except TomlError Datum := do
  let cs := Text.withoutReturns text.toList
  let draft ← statements {} cs (cs.length + 1)
  return .table (entriesData draft.entries)

end Shellwright.Toml
