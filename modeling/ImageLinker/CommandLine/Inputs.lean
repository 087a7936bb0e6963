import ImageLinker.CommandLine.Execution
import ImageLinker.Unix.Program

/-! The paths of the files that a command may read. -/
namespace ImageLinker.CommandLine

def programPaths (vars : Variables) (program : String) : List String :=
  if program.toList.contains '/' then [program]
  else
    let directories := Unix.searchPath ((vars.lookup "PATH").getD Unix.Call.standardPath)
    directories.map (Files.Path.join · program)

def Command.manifestPath? : Command → Option String
  | .build r => some (r.manifest.getD defaultManifest)
  | .inspect _ => none

def manifestInputs (vars : Variables) (m : Manifest) : List String :=
  m.modules ++ m.shimTemplate.toList ++ programPaths vars (m.compiler.getD "solc") ++
    if m.hash then programPaths vars m.hasher else []

/-- What a command reads besides its manifest, which must be among the files by then. -/
def Command.inputs (s : Surroundings) (files : Files.Tree) : Command → List String
  | .build r =>
    match (r.toManifest s.readManifest files).1 with
    | .ok m => manifestInputs s.vars m
    | .error _ => []
  | .inspect r => r.file :: programPaths s.vars (r.compiler.getD "solc")

end ImageLinker.CommandLine
