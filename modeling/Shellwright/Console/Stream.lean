/-!
# Streams

Each of the two output streams is checked for a terminal on its own. Where the output is no terminal, the
sequences that style a text are left out of it.
-/

namespace Shellwright.Console

/-- What is known about the output streams; a closed stream is no terminal. -/
structure Terminals where
  output : Bool
  error : Bool
  /-- The value of the variable that forbids colour, when it is set. -/
  colourVeto : Option String := none

/-- How a stream is written to. -/
structure StreamStyle where
  colour : Bool
  signs : Bool
  toError : Bool
  terminal : Bool
  deriving DecidableEq, Repr

/-- Colour is used on a terminal where it is wanted and not forbidden; an empty veto forbids
nothing. -/
def Terminals.style (t : Terminals) (colour signs toError : Bool) : StreamStyle :=
  let terminal := if toError then t.error else t.output
  let forbidden := match t.colourVeto with
    | some value => !value.isEmpty
    | none => false
  ⟨colour && terminal && !forbidden, signs, toError, terminal⟩

/-! ## Plain output -/

/-- What may stand between the start of a sequence and the letter at its end. -/
def isParameter (c : Char) : Bool :=
  c == ';' || c == '?' || c.isDigit

/-- The length of the sequence at the start of a text: escape, a bracket, parameters and a letter. -/
def sequenceLength? : List Char → Option Nat
  | '\x1b' :: '[' :: rest =>
    let parameters := rest.takeWhile isParameter
    match rest.drop parameters.length with
    | c :: _ => if c.isAlpha then some (parameters.length + 3) else none
    | [] => none
  | _ => none

/-- A text without its first `skip` characters and without sequences after them. -/
def plainFrom : (skip : Nat) → List Char → List Char
  | _, [] => []
  | skip + 1, _ :: rest => plainFrom skip rest
  | 0, c :: rest =>
    match sequenceLength? (c :: rest) with
    | some n => plainFrom (n - 1) rest
    | none => c :: plainFrom 0 rest

def plain (text : String) : String :=
  String.ofList (plainFrom 0 text.toList)

end Shellwright.Console
