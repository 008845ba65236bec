import Shellwright.Text.Lines
/-!
# Paths

Paths are read by their parts: empty parts and single dots are dropped, `..` is kept, and two leading
slashes, no more, are a root of their own.
-/

namespace Shellwright

/-- How a path begins: in the working directory, at one slash or at exactly two. -/
inductive PathRoot
  | none
  | single
  | double
  deriving DecidableEq, Repr

namespace PathRoot

def text : PathRoot → String
  | .none => ""
  | .single => "/"
  | .double => "//"

end PathRoot

structure Path where
  root : PathRoot
  parts : List String
  deriving DecidableEq, Repr

namespace Path

/-- Cut at every slash. -/
def splitSlashes (cs : List Char) : List (List Char) :=
  Text.cutAt '/' cs

def rootOf : List Char → PathRoot
  | '/' :: '/' :: '/' :: _ => .single
  | '/' :: '/' :: _ => .double
  | '/' :: _ => .single
  | _ => .none

def ofString (s : String) : Path :=
  let cs := s.toList
  ⟨rootOf cs, ((splitSlashes cs).filter fun p => p != [] && p != ['.']).map String.ofList⟩

def isAbsolute (p : Path) : Bool :=
  p.root != .none

/-- The path of no parts is written `.` unless it is a root. -/
def text (p : Path) : String :=
  match p.root, p.parts with
  | .none, [] => "."
  | root, parts => root.text ++ "/".intercalate parts

instance : ToString Path := ⟨text⟩

def name (p : Path) : String :=
  p.parts.getLastD ""

/-- The last dot of the name and what follows it; a dot at either end of the name does not count. -/
def suffixOfName (name : List Char) : List Char :=
  let tail := name.reverse.takeWhile (· != '.')
  if tail.length + 1 < name.length && !tail.isEmpty then '.' :: tail.reverse else []

def suffix (p : Path) : List Char :=
  suffixOfName p.name.toList

/-- `q` within the directory `p`; an absolute path stands for itself. -/
def join (p q : Path) : Path :=
  if q.isAbsolute then q else ⟨p.root, p.parts ++ q.parts⟩

end Path

end Shellwright
