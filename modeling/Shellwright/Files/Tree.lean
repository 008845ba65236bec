import Shellwright.Files.Path
import Shellwright.Keyed
import Shellwright.Text.Utf8
/-!
# File trees

A snapshot of files, directories and symbolic links, and how a path leads to one of them. Every
directory on the way to an entry is there as well.
-/

namespace Shellwright.Files

inductive Entry
  | file (content : List UInt8) (executable : Bool)
  | directory
  | link (target : String)

/-- Why a path leads nowhere or a file cannot be read. -/
inductive FileError
  | notFound
  | notDirectory
  | isDirectory
  | tooManyLinks
  | undecodable
  | nameTooLong
  | nullCharacter
  deriving DecidableEq, Repr

/-- Entries by absolute location, and the working directory. -/
structure Tree where
  entries : Keyed (List String) Entry := []
  working : List String := []

namespace Tree

/-- The entry at a location, without following a link there. -/
def entryAt? (t : Tree) (location : List String) : Option Entry :=
  match t.entries.get? location with
  | some e => some e
  | none =>
    if location.isEmpty || t.entries.keys.any (location.isPrefixOf ·) then some .directory else none

/-- Bytes that the name of an entry may have. -/
def nameLimit : Nat := 255

/-- Bytes that a path may have. -/
def pathLimit : Nat := 4095

/-- Number of links that may be followed on one way. -/
def linkLimit : Nat := 40

/-- Steps along the parts of a path from a location; `fuel` bounds parts and links together. -/
def walk (t : Tree) (location : List String) (links : Nat) :
    (parts : List String) → (fuel : Nat) → Except FileError (List String × Entry)
  | _, 0 => .error .tooManyLinks
  | [], _ + 1 =>
    match t.entryAt? location with
    | some e => .ok (location, e)
    | none => .error .notFound
  | part :: rest, fuel + 1 =>
    match t.entryAt? location with
    | some .directory =>
      if nameLimit < part.utf8ByteSize then .error .nameTooLong
      else if part = "." then walk t location links rest fuel
      else if part = ".." then walk t location.dropLast links rest fuel
      else
        let next := location ++ [part]
        match t.entryAt? next with
        | none => .error .notFound
        | some (.link target) =>
          match links with
          | 0 => .error .tooManyLinks
          | links + 1 =>
            let p := Path.ofString target
            walk t (if p.isAbsolute then [] else location) links (p.parts ++ rest) fuel
        | some _ => walk t next links rest fuel
    | some _ => .error .notDirectory
    | none => .error .notFound

/-- Enough steps for a path of `n` parts and all the links that may be followed. -/
def walkFuel (t : Tree) (n : Nat) : Nat :=
  n + 2 + linkLimit * (2 + (t.entries.values.map fun
    | .link target => target.length
    | _ => 0).foldl max 0)

/-- The parts of a path as they stand, with `.` and `..`; a slash at the end asks for a directory. -/
def parts (path : String) : List String :=
  let ps := ((Path.splitSlashes path.toList).map String.ofList)
  let kept := ps.filter fun p => p != ""
  if path.endsWith "/" && !kept.isEmpty then kept ++ ["."] else kept

/-- The entry that a path leads to, links followed. -/
def find (t : Tree) (path : String) : Except FileError (List String × Entry) :=
  if path.toList.contains '\x00' then .error .nullCharacter
  else if path.isEmpty then .error .notFound
  else if pathLimit < path.utf8ByteSize then .error .nameTooLong
  else
    let ps := parts path
    t.walk (if path.startsWith "/" then [] else t.working) linkLimit ps (t.walkFuel ps.length)

def isFile (t : Tree) (path : String) : Bool :=
  match t.find path with
  | .ok (_, .file ..) => true
  | _ => false

/-- There is a file at a path, unless the name is too long for the question to be asked. -/
def askFile (t : Tree) (path : String) : Except FileError Bool :=
  match t.find path with
  | .ok (_, .file ..) => .ok true
  | .error .nameTooLong => .error .nameTooLong
  | _ => .ok false

def isDirectory (t : Tree) (path : String) : Bool :=
  match t.find path with
  | .ok (_, .directory) => true
  | _ => false

def doesExist (t : Tree) (path : String) : Bool :=
  (t.find path).toOption.isSome

def isExecutable (t : Tree) (path : String) : Bool :=
  match t.find path with
  | .ok (_, .file _ executable) => executable
  | _ => false

def bytes (t : Tree) (path : String) : Except FileError (List UInt8) := do
  match ← t.find path with
  | (_, .file content _) => return content
  | _ => .error .isDirectory

/-- Every kind of line end becomes a line feed. -/
def unifyLineEnds : List Char → List Char
  | '\r' :: '\n' :: rest => '\n' :: unifyLineEnds rest
  | '\r' :: rest => '\n' :: unifyLineEnds rest
  | c :: rest => c :: unifyLineEnds rest
  | [] => []

/-- The text of a file, which has to be UTF-8. -/
def readText (t : Tree) (path : String) : Except FileError String := do
  match Text.Utf8.decode? (← t.bytes path) with
  | some s => return String.ofList (unifyLineEnds s.toList)
  | none => .error .undecodable

/-- Replace the content of a file, links followed. -/
def writeText (t : Tree) (path text : String) : Tree :=
  match t.find path with
  | .ok (location, .file _ executable) =>
    { t with entries := t.entries.put location (.file (Text.Utf8.encode text) executable) }
  | _ => t

/-- A location as an absolute path. -/
def pathOf (location : List String) : String :=
  "/" ++ "/".intercalate location

/-- What is still to come on a way that is being resolved. -/
inductive Waypoint
  | part (name : String)
  /-- The target of a link has been resolved. -/
  | arrived (link : List String)
  deriving DecidableEq, Repr

def Waypoint.name? : Waypoint → Option String
  | .part name => some name
  | .arrived _ => none

/-- How far a way has been resolved. -/
structure Resolution where
  location : List String
  /-- Links whose targets have been turned to. -/
  entered : List (List String) := []
  /-- Where links lead to. -/
  known : Keyed (List String) (List String) := []

/-- A location without `.` and `..`, links not asked about. -/
def tidied (location : List String) : List String :=
  location.foldl (fun l part =>
    if part = "." then l else if part = ".." then l.dropLast else l ++ [part]) []

/-- The location that a way leads to, links resolved as far as entries exist. What does not exist is
taken as written, and so is the rest of the way from a link that leads to itself. -/
def resolveFrom (t : Tree) (r : Resolution) :
    (todo : List Waypoint) → (fuel : Nat) → List String
  | todo, 0 => tidied (r.location ++ todo.filterMap Waypoint.name?)
  | [], _ + 1 => r.location
  | .arrived link :: rest, fuel + 1 =>
    resolveFrom t { r with known := r.known.put link r.location } rest fuel
  | .part name :: rest, fuel + 1 =>
    if name = "." then resolveFrom t r rest fuel
    else if name = ".." then resolveFrom t { r with location := r.location.dropLast } rest fuel
    else
      let next := r.location ++ [name]
      match t.entryAt? next, r.known.get? next with
      | some (.link _), some place => resolveFrom t { r with location := place } rest fuel
      | some (.link target), none =>
        if r.entered.contains next then tidied (next ++ rest.filterMap Waypoint.name?)
        else
          let p := Path.ofString target
          let r := { r with
            location := if p.isAbsolute then [] else r.location
            entered := next :: r.entered }
          resolveFrom t r (p.parts.map .part ++ .arrived next :: rest) fuel
      | _, _ => resolveFrom t { r with location := next } rest fuel

/-- Enough steps for a path of `n` parts: the target of every link is turned to once. -/
def resolveFuel (t : Tree) (n : Nat) : Nat :=
  n + 2 + (t.entries.values.map fun
    | .link target => target.length + 2
    | _ => 0).foldl (· + ·) 0

/-- The absolute path without links that `path` stands for; a loop of links is an error. -/
def resolve (t : Tree) (path : String) : Except FileError String :=
  let p := Path.ofString path
  let start : Resolution := { location := if p.isAbsolute then [] else t.working }
  let location := t.resolveFrom start (p.parts.map .part) (t.resolveFuel p.parts.length)
  if path.toList.contains '\x00' then .error .nullCharacter
  else match t.find (pathOf location) with
  | .error .tooManyLinks => .error .tooManyLinks
  | _ => .ok (pathOf location)

end Tree

/-- Letters, digits and `_.-~/` stand for themselves in the address of a file. -/
def isPlainInUri (c : Char) : Bool :=
  c.isAlphanum || "_.-~/".toList.contains c

def percentByte (b : UInt8) : List Char :=
  '%' :: [b.toNat / 16, b.toNat % 16].map fun d =>
    if d < 10 then Char.ofNat (48 + d) else Char.ofNat (55 + d)

/-- The address of an absolute path, other characters written byte by byte. -/
def uriOf (path : String) : String :=
  "file://" ++ String.ofList (path.toList.flatMap fun c =>
    if isPlainInUri c then [c] else (Text.Utf8.encode (String.ofList [c])).flatMap percentByte)

end Shellwright.Files
