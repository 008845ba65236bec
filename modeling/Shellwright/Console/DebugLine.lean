import Shellwright.Console.Notice
import Shellwright.Text.Blank
import Shellwright.Text.Word
/-!
# Debug lines

A debug line shows its message with the `key=value` pairs in it highlighted.
-/

namespace Shellwright.Console

open Shellwright.Text

inductive PieceStyle
  | dim
  | key
  | value
  | command
  deriving DecidableEq, Repr

namespace PieceStyle

def label : PieceStyle → String
  | .dim => "dim"
  | .key => "bold magenta"
  | .value => "bold green"
  | .command => "bold blue"

end PieceStyle

/-- A piece of a message in one style. -/
structure Piece where
  text : List Char
  style : PieceStyle
  deriving DecidableEq, Repr

def isKeyChar (c : Char) : Bool :=
  isWord c || c == '-'

/-- A value in double quotes on one line, with its quotes. -/
def quotedValue? : List Char → Option (List Char)
  | '"' :: rest =>
    let body := rest.takeWhile fun c => c != '"' && c != '\n'
    match rest.drop body.length with
    | '"' :: _ => some ('"' :: body ++ ['"'])
    | _ => none
  | _ => none

/-- The value at the start of a text: quoted, or up to the next blank. -/
def value? (cs : List Char) : Option (List Char) :=
  match quotedValue? cs with
  | some v => some v
  | none =>
    match cs.takeWhile (!isBlank ·) with
    | [] => none
    | v => some v

/-- The pair at the start of a text, when there is one. -/
def pair? (cs : List Char) : Option (List Char × List Char) :=
  match cs.takeWhile isKeyChar with
  | [] => none
  | key =>
    match cs.drop key.length with
    | '=' :: rest => (value? rest).map (key, ·)
    | _ => none

def valueStyle (key : List Char) : PieceStyle :=
  if key == "command".toList || key == "cmd".toList then .command else .value

def pairPieces (key value : List Char) : List Piece :=
  [⟨key, .key⟩, ⟨['='], .dim⟩, ⟨value, valueStyle key⟩]

/-- What has been passed over without finding a pair, most recent first. -/
def dimPieces (passed : List Char) : List Piece :=
  if passed.isEmpty then [] else [⟨passed.reverse, .dim⟩]

/-- The pieces of a message; `fuel` bounds its length. -/
def piecesFrom (passed : List Char) : (cs : List Char) → (fuel : Nat) → List Piece
  | [], _ => dimPieces passed
  | cs, 0 => dimPieces (cs.reverse ++ passed)
  | c :: rest, fuel + 1 =>
    match pair? (c :: rest) with
    | some (key, value) =>
      dimPieces passed ++ pairPieces key value ++
        piecesFrom [] ((c :: rest).drop (key.length + 1 + value.length)) fuel
    | none => piecesFrom (c :: passed) rest fuel

def pieces (message : List Char) : List Piece :=
  piecesFrom [] message message.length

/-- The mark at the start of a debug line. -/
def debugMark : String := "[debug] "

/-- Style of the mark. -/
def debugStyle : String := "bold cyan"

/-- A debug line as it is printed: its text, and where each piece stands in it. -/
structure DebugLine where
  text : List Char
  spans : List (Nat × Nat × PieceStyle)
  deriving DecidableEq, Repr

/-- A piece without what is never printed. -/
def Piece.shown (p : Piece) : List Char :=
  printable p.text

/-- Where pieces stand that follow one another from `start` on. -/
def spansFrom (start : Nat) : List Piece → List (Nat × Nat × PieceStyle)
  | [] => []
  | p :: rest =>
    let stop := start + p.shown.length
    (start, stop, p.style) :: spansFrom stop rest

def debugLine (message : String) : DebugLine :=
  let ps := pieces message.toList
  ⟨debugMark.toList ++ ps.flatMap Piece.shown, spansFrom debugMark.length ps⟩

end Shellwright.Console
