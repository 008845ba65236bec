import Shellwright.Files.Tree
/-!
# Finding executables

A command with a directory in it names a file; a bare name is looked up in the directories of the
search path.
-/

namespace Shellwright.Files

/-- Where commands are looked up. -/
structure SearchPath where
  home : String
  directories : String

/-- Home directories of the accounts that every system has. -/
def knownHomes : List (String × String) :=
  [("root", "/root"), ("daemon", "/usr/sbin"), ("bin", "/bin"), ("nobody", "/nonexistent")]

/-- A tilde names a home directory that is not known. -/
inductive ExecutableError
  | unknownHome
  | file (error : FileError)
  deriving DecidableEq, Repr

/-- The path of a home directory. Slashes alone, or nothing at all, stand for the root, and a tilde at
the start for no directory. -/
def homePath? (home : String) : Option Path :=
  if home.startsWith "~" then none
  else if home.toList.all (· == '/') then some ⟨.single, []⟩
  else some (Path.ofString home)

/-- The home directory that a part with a tilde at its start stands for: the user's, or that of an
account. -/
def SearchPath.homeOf? (s : SearchPath) (part : String) : Option Path :=
  let home := if part = "~" then some s.home else knownHomes.lookup (part.drop 1).toString
  home.bind homePath?

/-- A tilde at the start of the first part stands for a home directory. -/
def expandHome (s : SearchPath) (p : Path) : Except ExecutableError Path :=
  match p.root, p.parts with
  | .none, first :: rest =>
    if !first.startsWith "~" then .ok p
    else match s.homeOf? first with
      | some home => .ok ⟨home.root, home.parts ++ rest⟩
      | none => .error .unknownHome
  | _, _ => .ok p

/-- The directories that a search path lists. -/
def listed (directories : String) : List String :=
  (Text.cutAt ':' directories.toList).map String.ofList

/-- A name within a directory of the search path; an empty directory adds nothing. -/
def candidate (directory name : String) : String :=
  if directory.isEmpty then name
  else if directory.endsWith "/" then directory ++ name
  else directory ++ "/" ++ name

/-- The first directory of the search path that holds an executable file of this name. A name with a
slash is not looked up but tried itself. -/
def searchPath (t : Tree) (directories name : String) : Option String :=
  if name.toList.contains '/' then
    if t.isExecutable name then some name else none
  else if directories.isEmpty then none
  else ((listed directories).map (candidate · name)).find? t.isExecutable

/-- The path of the executable that a command stands for. -/
def findExecutable (t : Tree) (s : SearchPath) (command : String) :
    Except ExecutableError (Option String) := do
  if command.isEmpty then return none
  let p ← expandHome s (Path.ofString command)
  if p.isAbsolute || 1 < p.parts.length then
    return if ← (t.askFile p.text).mapError .file then some p.text else none
  return searchPath t s.directories command

end Shellwright.Files
