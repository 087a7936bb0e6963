import ImageLinker.Artifacts
import ImageLinker.Job

/-!
Writing artifacts: all targets are checked and all files are staged under other names before the
first of them is put in its place, so a failure leaves earlier artifacts as they were.
-/
namespace ImageLinker.Artifacts

open Files

/-- A file under a temporary name, and the path and place that it is for. -/
structure Staged where
  target : String
  targetPlace : Place
  temporaryPlace : Place
  deriving DecidableEq, Repr, Inhabited

/-- Writes files under temporary names, each of which the system can refuse to make or to fill. A
failure removes the file that it came at and those that were written before it. -/
def stage (dir : String) (place : Place) : (texts : List (String × String)) → (Nat → Attempt) →
    Tree → Except LinkError (List Staged) × Tree
  | [], _, files => (.ok [], files)
  | (name, text) :: rest, attempts, files =>
    match files.createTemporary dir ".tmp" "" (attempts 0) with
    | .error fault => (.error (.io (.stage name) fault), files)
    | .ok (path, temporary, files) =>
      match files.fill path temporary text.toUTF8.toList (attempts 0) with
      | (.error fault, files) => (.error (.io (.stage name) fault), files.erase temporary)
      | (.ok (), files) =>
        match stage dir place rest (fun n => attempts (n + 1)) files with
        | (.ok staged, files) =>
          (.ok (⟨Path.join dir name, place ++ [name], temporary⟩ :: staged), files)
        | (.error e, files) => (.error e, files.erase temporary)

/-- Puts staged files in their places and gives the paths. A failure removes those still staged. -/
def publish : List Staged → Tree → Except LinkError (List String) × Tree
  | [], files => (.ok [], files)
  | s :: rest, files =>
    match files.rename s.temporaryPlace s.targetPlace with
    | .error fault =>
      (.error (.io (.write s.target) fault),
        (s :: rest).foldl (fun files s => files.erase s.temporaryPlace) files)
    | .ok files =>
      match publish rest files with
      | (.ok written, files) => (.ok (s.target :: written), files)
      | (.error e, files) => (.error e, files)

def obstacle? (place : Place) (names : List String) (files : Tree) : Option String :=
  names.find? fun name => files.get? (place ++ [name]) == some .directory

/-- Writes named texts into a directory, which is made where it is missing. The system meets the
requests for temporary files in the order of the texts. -/
def writeFiles (dir : String) (texts : List (String × String)) (attempts : Nat → Attempt)
    (files : Tree) : Except LinkError (List String) × Tree :=
  match files.ensureDirectories dir with
  | (.error fault, files) => (.error (.io (.createDirectory dir) fault), files)
  | (.ok (), files) =>
    match files.resolve (if dir.isEmpty then "." else dir) with
    | .error fault => (.error (.io (.createDirectory dir) fault), files)
    | .ok place =>
      match obstacle? place (texts.map (·.1)) files with
      | some name => (.error (.io (.obstructed (Path.join dir name)) .directoryInTheWay), files)
      | none =>
        match stage dir place texts attempts files with
        | (.error e, files) => (.error e, files)
        | (.ok staged, files) => publish staged files

def write (dir : String) (a : Artifacts) (attempts : Nat → Attempt) : Job (List String) :=
  fun files =>
  let (result, files) := writeFiles dir a.files attempts files
  (result.mapError .error, files)

end ImageLinker.Artifacts
