import ImageLinker.Files.Fault
import ImageLinker.Files.Path

/-!
The files that a build sees: a map from places to files and directories. A place is the list of the
names on the way from the root.
-/
namespace ImageLinker.Files

abbrev Place := List String

inductive Entry where
  | file (bytes : List UInt8) (executable : Bool)
  | directory
  deriving DecidableEq, Repr, Inhabited

structure Tree where
  entries : List (Place × Entry) := []
  workingDirectory : Place := []
  deriving DecidableEq, Repr, Inhabited

namespace Tree

def get? (t : Tree) (place : Place) : Option Entry :=
  if place = [] then some .directory else (t.entries.find? (·.1 = place)).map (·.2)

def set (t : Tree) (place : Place) (entry : Entry) : Tree :=
  { t with entries := (place, entry) :: t.entries.filter (·.1 ≠ place) }

def erase (t : Tree) (place : Place) : Tree :=
  { t with entries := t.entries.filter (·.1 ≠ place) }

def nameLimit : Nat := 255

def pathLimit : Nat := 4096

/-- Follows pieces of a path from a directory. All but the last must be directories; the last may
name anything, and need not be there. -/
def follow (t : Tree) (here : Place) : List String → Except Fault Place
  | [] => .ok here
  | piece :: rest =>
    if piece = "" ∨ piece = "." then follow t here rest
    else if piece = ".." then follow t here.dropLast rest
    else if nameLimit < piece.utf8ByteSize then .error .nameTooLong
    else if rest = [] then .ok (here ++ [piece])
    else
      match t.get? (here ++ [piece]) with
      | some .directory => follow t (here ++ [piece]) rest
      | some (.file ..) => .error .notADirectory
      | none => .error .notFound

def resolve (t : Tree) (path : String) : Except Fault Place :=
  if path.isEmpty then .error .notFound
  else if path.toList.contains '\x00' then .error .nulInName
  else if pathLimit ≤ path.utf8ByteSize then .error .nameTooLong
  else t.follow (if Path.isAbsolute path then [] else t.workingDirectory) (Path.pieces path)

def lookup (t : Tree) (path : String) : Except Fault Entry := do
  match t.get? (← t.resolve path) with
  | some entry => .ok entry
  | none => .error .notFound

def isDirectory (t : Tree) (path : String) : Bool :=
  match t.lookup path with
  | .ok .directory => true
  | _ => false

def isFile (t : Tree) (path : String) : Bool :=
  match t.lookup path with
  | .ok (.file ..) => true
  | _ => false

def namesAt (t : Tree) (place : Place) : List String :=
  t.entries.filterMap fun (at_, _) =>
    if at_.dropLast = place then at_.getLast? else none

def readBytes (t : Tree) (path : String) : Except Fault (List UInt8) := do
  match ← t.lookup path with
  | .file bytes _ => .ok bytes
  | .directory => .error .isADirectory

def textOfBytes (bytes : List UInt8) : Except Fault String :=
  match String.fromUTF8? ⟨bytes.toArray⟩ with
  | some text => .ok text
  | none => .error .notText

def readText (t : Tree) (path : String) : Except Fault String := do
  textOfBytes (← t.readBytes path)

/-- Writes a file that may have been there before, in which case it stays as executable as it
was. -/
def writeBytes (t : Tree) (path : String) (bytes : List UInt8) : Except Fault Tree := do
  let place ← t.resolve path
  match t.get? place with
  | some .directory => .error .isADirectory
  | some (.file _ executable) => .ok (t.set place (.file bytes executable))
  | none => .ok (t.set place (.file bytes false))

def makeDirectory (t : Tree) (path : String) : Except Fault Tree := do
  let place ← t.resolve (Path.dropTrailingSlashes path)
  match t.get? place with
  | some _ => .error .alreadyExists
  | none => .ok (t.set place .directory)

/-- Makes a directory and those it lies in. What has been made ahead of a failure stays. The fuel is
the number of pieces that a path can lose. -/
def makeDirectoriesFrom (t : Tree) : (fuel : Nat) → (path : String) → Except Fault Unit × Tree
  | 0, _ => (.ok (), t)
  | fuel + 1, path =>
    if path.isEmpty then (.ok (), t)
    else
      match t.makeDirectory path with
      | .ok made => (.ok (), made)
      | .error .notFound =>
        match Path.parent? path with
        | none => (.error .notFound, t)
        | some parent =>
          match makeDirectoriesFrom t fuel parent with
          | (.error fault, t) => (.error fault, t)
          | (.ok (), t) =>
            match t.makeDirectory path with
            | .ok made => (.ok (), made)
            | .error fault => (if t.isDirectory path then .ok () else .error fault, t)
      | .error fault => (if t.isDirectory path then .ok () else .error fault, t)

def ensureDirectories (t : Tree) (path : String) : Except Fault Unit × Tree :=
  t.makeDirectoriesFrom (path.length + 1) path

def makeDirectories (t : Tree) (path : String) : Except Fault Tree :=
  let (result, made) := t.ensureDirectories path
  result.map fun _ => made

def withDirectories (t : Tree) (place : Place) : Tree :=
  (List.range place.length).foldl (fun t n => t.set (place.take (n + 1)) .directory) t

def withFile (t : Tree) (place : Place) (bytes : List UInt8) (executable : Bool) : Tree :=
  (t.withDirectories place.dropLast).set place (.file bytes executable)

def newSince (t before : Tree) : List (Place × Entry) :=
  t.entries.filter fun (place, entry) => before.get? place ≠ some entry

def goneSince (t before : Tree) : List Place :=
  (before.entries.filter fun (place, _) => (t.get? place).isNone).map (·.1)

/-- Gives a file another place, taking the place of a file that was there. -/
def rename (t : Tree) (source target : Place) : Except Fault Tree :=
  match t.get? source, t.get? target with
  | _, some .directory => .error .isADirectory
  | some entry, _ => .ok ((t.erase source).set target entry)
  | none, _ => .error .notFound

end Tree

end ImageLinker.Files
