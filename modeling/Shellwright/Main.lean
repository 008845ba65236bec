import Shellwright.Command.Run
/-!
# The program

Reads the files that a command needs, runs the command on a bench without programs, prints what it has
to say and writes the files that it has changed.
-/

open Shellwright

namespace Shellwright.Program

/-- The places on the way along the parts of a path. -/
def placesOn (place : List String) : List String → List (List String)
  | [] => [place]
  | part :: rest =>
    place :: placesOn (if part = ".." then place.dropLast else place ++ [part]) rest

/-- What is at a path: a file under its real place, with a link to it from the place that is named.
What cannot be read as a file counts as a directory. -/
def entriesAt (working : List String) (name : String) : IO (List (List String × Files.Entry)) := do
  let path := Path.ofString name
  let places := placesOn (if path.isAbsolute then [] else working) path.parts
  let named := places.getLastD []
  let ways := places.dropLast.map fun place => (place, Files.Entry.directory)
  try
    let content ← IO.FS.readBinFile name
    let real := toString (← IO.FS.realPath name)
    let place := (Path.ofString real).parts
    let file := (place, Files.Entry.file content.toList false)
    return ways ++ (if place = named then [file] else [(named, .link real), file])
  catch e =>
    match e with
    | .noFileOrDirectory .. => return []
    | _ => return ways ++ [(named, .directory)]

/-- The files that a request names and the settings files of the working directory. -/
def treeFor (r : Command.Request) : IO Files.Tree := do
  let working := (Path.ofString (toString (← IO.currentDir))).parts
  let names := [Settings.projectFileName, Settings.settingsFileName] ++ r.settingsFile.toList ++
    r.action.files
  let entries ← names.mapM (entriesAt working)
  return ⟨Keyed.ofList ((working, .directory) :: entries.flatten), working⟩

/-- Write every file of a request whose content is no longer what it was. -/
def writeChanges (r : Command.Request) (before after : Files.Tree) : IO Unit :=
  r.action.files.forM fun name => do
    match (before.bytes name).toOption, (after.bytes name).toOption with
    | some old, some new =>
      if old != new then IO.FS.writeBinFile name (ByteArray.mk new.toArray)
    | _, _ => return

/-- Status of a command that was not understood. -/
def usageStatus : UInt32 := 2

def refuse (e : Command.UsageError) : IO UInt32 := do
  IO.eprintln e.message
  return usageStatus

end Shellwright.Program

open Shellwright.Program in
def main (arguments : List String) : IO UInt32 := do
  match Command.Request.ofArguments arguments with
  | .error e => refuse e
  | .ok r =>
    let files ← treeFor r
    match r.verify files with
    | .error e => refuse e
    | .ok r =>
      let ending := r.run files {} .none
      writeChanges r files ending.session.files
      IO.print ending.session.stdout
      IO.eprint ending.session.stderr
      return ending.status.toUInt32
