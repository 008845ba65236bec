import Shellwright.Text.Blank
import Shellwright.Text.Quoted
import Shellwright.Wire.Datum
/-!
# Parts of a TOML document

Readers for blanks, comments, keys, texts, numbers and moments. Each takes the text that is left and
gives back what it read together with the rest.
-/

namespace Shellwright.Toml

/-- Why a document is refused: it is malformed, or holds a number too long or a value nested too
deeply to be read. -/
inductive TomlError
  | malformed
  | tooManyDigits
  | nestedTooDeeply
  deriving DecidableEq, Repr

/-- A reader of the text that is left. -/
abbrev Read (α : Type) := List Char → Except TomlError (α × List Char)

def isSpace (c : Char) : Bool :=
  c == ' ' || c == '\t'

def isSpaceOrFeed (c : Char) : Bool :=
  isSpace c || c == '\n'

/-- Control characters other than the tab may not stand in comments and texts. -/
def isControl (c : Char) : Bool :=
  (c.toNat < 32 && c != '\t') || c.toNat == 127

def skipSpace (cs : List Char) : List Char :=
  cs.dropWhile isSpace

/-- A comment reaches to the end of the line. -/
def skipComment (cs : List Char) : Except TomlError (List Char) :=
  match cs with
  | '#' :: rest =>
    if (rest.takeWhile (· != '\n')).any isControl then .error .malformed
    else .ok (rest.dropWhile (· != '\n'))
  | _ => .ok cs

/-- Blanks, line feeds and comments, as they may stand between the items of an array. -/
def skipArraySpace (cs : List Char) : (fuel : Nat) → Except TomlError (List Char)
  | 0 => .error .malformed
  | fuel + 1 => do
    let rest ← skipComment (cs.dropWhile isSpaceOrFeed)
    match rest with
    | '\n' :: _ => skipArraySpace rest fuel
    | _ => return rest

def isBareKey (c : Char) : Bool :=
  c.isAlphanum || c == '-' || c == '_'

def hexValue? (c : Char) : Option Nat :=
  if '0' ≤ c && c ≤ '9' then some (c.toNat - 48)
  else if 'a' ≤ c && c ≤ 'f' then some (c.toNat - 87)
  else if 'A' ≤ c && c ≤ 'F' then some (c.toNat - 55)
  else none

/-- A character given by `width` hexadecimal digits. -/
def escapedScalar (width : Nat) (cs : List Char) : Except TomlError (Char × List Char) :=
  match (cs.take width).mapM hexValue? with
  | none => .error .malformed
  | some ds =>
    let n := ds.foldl (fun n d => 16 * n + d) 0
    if ds.length = width && n.isValidChar then .ok (Char.ofNat n, cs.drop width)
    else .error .malformed

/-- The escapes of one letter. -/
def escapedLetter? : Char → Option Char
  | 'b' => some (Char.ofNat 8)
  | 't' => some '\t'
  | 'n' => some '\n'
  | 'f' => some (Char.ofNat 12)
  | 'r' => some '\r'
  | '"' => some '"'
  | '\\' => some '\\'
  | _ => none

/-- What follows a backslash in a text of several lines when the backslash swallows a line end and
the blanks after it. -/
def swallowedLineEnd? (cs : List Char) : Option (Except TomlError (List Char)) :=
  match cs with
  | c :: rest =>
    if c == '\n' then some (.ok (rest.dropWhile isSpaceOrFeed))
    else if isSpace c then
      match rest.dropWhile isSpace with
      | [] => some (.ok [])
      | '\n' :: rest => some (.ok (rest.dropWhile isSpaceOrFeed))
      | _ => some (.error .malformed)
    else none
  | [] => none

/-- A basic text after its opening quotes; `held` is what was read, nearest first. -/
def basicText (multiline : Bool) (held : List Char) (cs : List Char) :
    (fuel : Nat) → Except TomlError (List Char × List Char)
  | 0 => .error .malformed
  | fuel + 1 =>
    match cs with
    | [] => .error .malformed
    | '"' :: rest =>
      if !multiline then .ok (held.reverse, rest)
      else match rest with
        | '"' :: '"' :: rest => .ok (held.reverse, rest)
        | _ => basicText multiline ('"' :: held) rest fuel
    | '\\' :: rest =>
      match (if multiline then swallowedLineEnd? rest else none) with
      | some (.ok rest) => basicText multiline held rest fuel
      | some (.error e) => .error e
      | none =>
        match rest with
        | 'u' :: rest => do
          let (c, rest) ← escapedScalar 4 rest
          basicText multiline (c :: held) rest fuel
        | 'U' :: rest => do
          let (c, rest) ← escapedScalar 8 rest
          basicText multiline (c :: held) rest fuel
        | c :: rest =>
          match escapedLetter? c with
          | some d => basicText multiline (d :: held) rest fuel
          | none => .error .malformed
        | [] => .error .malformed
    | c :: rest =>
      if isControl c && !(multiline && c == '\n') then .error .malformed
      else basicText multiline (c :: held) rest fuel

/-- Up to two more quotes belong to a text of several lines. -/
def extraQuotes (quote : Char) (text rest : List Char) : List Char × List Char :=
  match rest with
  | a :: b :: more =>
    if a == quote then
      if b == quote then (text ++ [quote, quote], more) else (text ++ [quote], b :: more)
    else (text, rest)
  | [a] => if a == quote then (text ++ [quote], []) else (text, rest)
  | [] => (text, rest)

/-- A line feed right after the opening quotes does not count. -/
def skipFirstFeed : List Char → List Char
  | '\n' :: rest => rest
  | cs => cs

/-- The text up to three single quotes. -/
def untilTripleQuote : List Char → Option (List Char × List Char)
  | [] => none
  | '\'' :: '\'' :: '\'' :: rest => some ([], rest)
  | c :: rest => (untilTripleQuote rest).map fun p => (c :: p.1, p.2)

def literalText : Read (List Char) := fun cs =>
  let body := cs.takeWhile (· != '\'')
  match cs.dropWhile (· != '\'') with
  | [] => .error .malformed
  | _ :: rest => if body.any isControl then .error .malformed else .ok (body, rest)

def literalLines : Read (List Char) := fun cs =>
  match untilTripleQuote (skipFirstFeed cs) with
  | none => .error .malformed
  | some (body, rest) =>
    if body.any fun c => isControl c && c != '\n' then .error .malformed
    else .ok (extraQuotes '\'' body rest)

def basicLine : Read (List Char) := fun cs =>
  basicText false [] cs (cs.length + 1)

def basicLines : Read (List Char) := fun cs => do
  let cs := skipFirstFeed cs
  let (body, rest) ← basicText true [] cs (cs.length + 1)
  return extraQuotes '"' body rest

def keyPart : Read String := fun cs =>
  match cs with
  | '"' :: rest => (basicLine rest).map fun p => (String.ofList p.1, p.2)
  | '\'' :: rest => (literalText rest).map fun p => (String.ofList p.1, p.2)
  | _ =>
    match cs.takeWhile isBareKey with
    | [] => .error .malformed
    | part => .ok (String.ofList part, cs.dropWhile isBareKey)

/-- The parts of a dotted key, with the blanks around the dots and after the key passed over. -/
def dottedKey (cs : List Char) : (fuel : Nat) → Except TomlError (List String × List Char)
  | 0 => .error .malformed
  | fuel + 1 => do
    let (part, rest) ← keyPart cs
    match skipSpace rest with
    | '.' :: rest => do
      let (parts, rest) ← dottedKey (skipSpace rest) fuel
      return (part :: parts, rest)
    | rest => return ([part], rest)

def key : Read (List String) := fun cs =>
  dottedKey cs (cs.length + 1)

end Shellwright.Toml
