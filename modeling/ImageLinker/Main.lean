import ImageLinker.CommandLine.Inputs
import ImageLinker.Host
import ImageLinker.Manifest.Reading

/-!
The program: brings in the files that a command reads, does the command, and brings out what has
changed. Programs that a command runs are the tools and scripts that were brought in.
-/
namespace ImageLinker.Program

open CommandLine

def usage : String :=
  "usage: sectlink build [OPTIONS] [MODULES]...\n       sectlink inspect [OPTIONS] FILE\n"

def variableNames : List String := ["HOME", "USERPROFILE", "XDG_DATA_HOME", "TMPDIR", "PATH"]

def readVariables : IO Variables := do
  let values ← variableNames.mapM fun name => return (name, ← IO.getEnv name)
  return values.filterMap fun (name, value) => value.map (name, ·)

def placeOf (files : Files.Tree) (path : String) : Files.Place :=
  let names := (Files.Path.pieces path).filter fun name => name ≠ "" ∧ name ≠ "."
  if Files.Path.isAbsolute path then names else files.workingDirectory ++ names

def bringIn (files : Files.Tree) (path : String) : IO Files.Tree := do
  let .ok bytes ← (IO.FS.readBinFile path).toBaseIO | return files
  return files.withFile (placeOf files path) bytes.toList true

/-- Writes and removes what has become another. -/
def bringOut (before after : Files.Tree) : IO Unit := do
  for (place, entry) in after.newSince before do
    match entry with
    | .directory => IO.FS.createDirAll (Files.Path.ofNames place)
    | .file bytes _ =>
      IO.FS.createDirAll (Files.Path.ofNames place.dropLast)
      IO.FS.writeBinFile (Files.Path.ofNames place) ⟨bytes.toArray⟩
  for place in after.goneSince before do
    IO.FS.removeFile (Files.Path.ofNames place)

/-- How often another name is tried for a temporary file. -/
def tries : Nat := 1024

/-- Threads are started, and temporary files take all of their bytes. -/
def system : System where
  source _ _ := .numbered tries
  shim := .numbered tries
  threadFault? _ := none

def surroundings (vars : Variables) : Surroundings where
  vars := vars
  host := Host.ofVariables vars
  readManifest := Manifest.parse
  system := system
  staging _ := .numbered tries

def surroundingFiles (s : Surroundings) (command : Command) : IO Files.Tree := do
  let here := placeOf {} (toString (← IO.currentDir))
  let temporary := placeOf {} (temporaryDirectory s.vars)
  let empty : Files.Tree := { workingDirectory := here }
  let files := Host.install ((empty.withDirectories here).withDirectories temporary)
  let files ← command.manifestPath?.toList.foldlM bringIn files
  (command.inputs s files).foldlM bringIn files

def perform (command : Command) : IO UInt32 := do
  let s := surroundings (← readVariables)
  let before ← surroundingFiles s command
  let (result, after) := command.run s before
  bringOut before after
  match result with
  | .ok text =>
    IO.print text
    return 0
  | .error failure =>
    IO.eprintln ("Error: " ++ failure.message)
    return 1

end ImageLinker.Program

def main (arguments : List String) : IO UInt32 := do
  match ImageLinker.CommandLine.Command.parse arguments with
  | .ok command => ImageLinker.Program.perform command
  | .error .help =>
    IO.print ImageLinker.Program.usage
    return 0
  | .error _ =>
    IO.eprint ImageLinker.Program.usage
    return 2
