import Shellwright.Text.Blank
import Shellwright.Text.Lines
import Shellwright.Text.Lower
/-!
# Styles

A style is named by words: attributes, colours and links. Names that stand for the same style have one
normal form.
-/

namespace Shellwright.Console

/-- Attributes in the order in which a normal form lists them. -/
def attributes : List String :=
  ["bold", "dim", "italic", "underline", "blink", "blink2", "reverse", "conceal", "strike",
    "underline2", "frame", "encircle", "overline"]

/-- Some attributes have a short name. -/
def shortAttributes : List (String × String) :=
  [("d", "dim"), ("b", "bold"), ("i", "italic"), ("u", "underline"), ("r", "reverse"),
    ("c", "conceal"), ("s", "strike"), ("uu", "underline2"), ("o", "overline")]

def attribute? (word : String) : Option String :=
  if attributes.contains word then some word else shortAttributes.lookup word

def colourNames : List String :=
  let names := ["black", "red", "green", "yellow", "blue", "magenta", "cyan", "white"]
  "default" :: names ++ names.map ("bright_" ++ ·)

def isHexDigit (c : Char) : Bool :=
  ('0' ≤ c && c ≤ '9') || ('a' ≤ c && c ≤ 'f')

/-- The text between a head and a bracket at the end. -/
def argument? (head word : String) : Option (List Char) :=
  let opening := head.toList ++ ['(']
  match word.toList.reverse with
  | ')' :: reversed =>
    let cs := reversed.reverse
    if opening.isPrefixOf cs then some (cs.drop opening.length) else none
  | _ => none

/-- A part of a colour, at most 255. -/
def isColourPart (cs : List Char) : Bool :=
  (Text.readInt (String.ofList cs)).any fun n => 0 ≤ n && n ≤ 255

/-- A colour by its name, its number, its parts or in hexadecimal. -/
def isColour (word : String) : Bool :=
  colourNames.contains word ||
  (match word.toList with
    | '#' :: digits => digits.length == 6 && digits.all isHexDigit
    | _ => false) ||
  ((argument? "color" word).any fun cs =>
    cs.length ≤ 3 && cs.all (fun c => '0' ≤ c && c ≤ '9') && isColourPart cs) ||
  ((argument? "rgb" word).any fun cs =>
    let parts := Text.cutAt ',' cs
    parts.length == 3 && parts.all fun part => part.all Text.isDigit && isColourPart part)

structure Style where
  attributes : List (String × Bool) := []
  colour : Option String := none
  ground : Option String := none
  link : Option String := none
  deriving DecidableEq, Repr

namespace Style

def withAttribute (s : Style) (name : String) (wanted : Bool) : Style :=
  { s with attributes := (name, wanted) :: s.attributes }

def lowered (word : String) : String :=
  String.ofList (Text.lower word.toList)

/-- The style that words name; `s` is that of the words before. -/
def ofWords (s : Style) : List String → Option Style
  | [] => some s
  | [word] =>
    match attribute? (lowered word) with
    | some a => some (s.withAttribute a true)
    | none => if isColour (lowered word) then some { s with colour := some (lowered word) } else none
  | word :: next :: rest =>
    let name := lowered word
    if name == "on" then
      if isColour (lowered next) then ofWords { s with ground := some (lowered next) } rest else none
    else if name == "not" then
      match attribute? next with
      | some a => ofWords (s.withAttribute a false) rest
      | none => none
    else if name == "link" then ofWords { s with link := some next } rest
    else match attribute? name with
      | some a => ofWords (s.withAttribute a true) (next :: rest)
      | none =>
        if isColour name then ofWords { s with colour := some name } (next :: rest) else none

/-- The name of a style in its normal form. -/
def name (s : Style) : String :=
  let named := Console.attributes.filterMap fun a => (s.attributes.lookup a).map fun wanted =>
    if wanted then a else "not " ++ a
  let words := named ++ s.colour.toList ++ (s.ground.map ("on " ++ ·)).toList ++
    (s.link.map ("link " ++ ·)).toList
  if words.isEmpty then "none" else " ".intercalate words

end Style

/-- The words of a text. -/
def wordsFrom (held : List Char) : List Char → List String
  | [] => if held.isEmpty then [] else [String.ofList held.reverse]
  | c :: rest =>
    if Text.isBlank c then
      if held.isEmpty then wordsFrom [] rest else String.ofList held.reverse :: wordsFrom [] rest
    else wordsFrom (c :: held) rest

/-- The normal form of a name; one that names no style is only trimmed and written in small letters. -/
def normalName (cs : List Char) : String :=
  if Text.trim cs == "none".toList then "none"
  else match Style.ofWords {} (wordsFrom [] cs) with
    | some s => s.name
    | none => Style.lowered (String.ofList (Text.trim cs))

end Shellwright.Console
