import ImageLinker.Unix.Kernel
import ImageLinker.Unix.Program

/-!
From a path to the program that runs. A program of the system is a file that names it behind a mark;
a script names its interpreter in its first line.
-/
namespace ImageLinker.Unix.Loading

def mark : UInt8 := 0x7f

def lookSize : Nat := 256

def isBlank (c : Char) : Bool := c == ' ' || c == '\t'

def endsName (c : Char) : Bool := isBlank c || c == '\x00'

/-- The first line behind the mark of a script, from as many characters as are looked at. A line
without an end loses its last character there, and counts only if its first word is whole. -/
def firstLine? (cs : List Char) : Option (List Char) :=
  let line := cs.takeWhile fun c => c != '\n' && c != '\x00'
  if cs[line.length]? = some '\n' then
    some (line.reverse.dropWhile isBlank).reverse
  else
    let named := cs.dropWhile isBlank
    if named.any endsName then some cs.dropLast else none

/-- The interpreter of a script and its argument if there is one. What is looked at behind the end
of a file is zero. -/
def interpreter? (bytes : List UInt8) : Option (String × Option String) := do
  let 0x23 :: 0x21 :: rest := bytes | none
  let seen := (rest.take (lookSize - 2)).map fun b => Char.ofNat b.toNat
  let seen := seen ++ List.replicate (lookSize - 2 - seen.length) '\x00'
  let line := (← firstLine? seen).dropWhile isBlank
  if line.isEmpty then none
  let path := line.takeWhile (!endsName ·)
  let behind := line.drop path.length
  let argument := if behind.head?.any isBlank then
    some (String.ofList ((behind.dropWhile isBlank).takeWhile (· != '\x00')))
  else none
  return (String.ofList path, argument)

/-- How many files may stand behind one another before a program is found. -/
def deepest : Nat := 6

def executable (files : Files.Tree) (path : String) : Except Files.Fault (List UInt8) := do
  match ← files.lookup (Text.decode path) with
  | .file bytes true => return bytes
  | _ => .error .permissionDenied

def follow (files : Files.Tree) : (left : Nat) → (path : String) → (bytes : List UInt8) → Call →
    Except Files.Fault (String × Call)
  | 0, _, _, _ => .error .tooManyLinks
  | left + 1, path, bytes, c =>
    match bytes with
    | [] => .error .badProgram
    | first :: name =>
      if first = mark then .ok (Text.ofBytes name, c)
      else
        match interpreter? bytes with
        | none => .error .badProgram
        | some (interpreter, argument) => do
          let bytes ← executable files interpreter
          let arguments := argument.toList ++ path :: c.arguments
          follow files left interpreter bytes { c with name := interpreter, arguments }

/-- A text may not be longer than so many bytes with the one that ends it. -/
def textLimit : Nat := 131072

/-- All texts together may not be longer, each with its end and its address. -/
def totalLimit : Nat := 2097152

def isTooLong (c : Call) : Bool :=
  let texts := c.name :: c.arguments ++ c.environment.map fun (name, value) => name ++ "=" ++ value
  let sizes := texts.map (·.length)
  sizes.any (textLimit ≤ ·) || totalLimit < sizes.foldl (· + · + 9) 0

def find (files : Files.Tree) (path : String) (c : Call) : Except Files.Fault (String × Call) := do
  let bytes ← executable files path
  if isTooLong c then .error .argumentsTooLong
  follow files deepest path bytes c

/-- What runs for the first of some paths that can be run. One that may not be run is passed over,
and told of only if no other is found. -/
def findFirst (files : Files.Tree) (c : Call) : (fault : Files.Fault) → List String →
    Except Files.Fault (String × Call)
  | fault, [] => .error fault
  | fault, path :: rest =>
    match find files path c with
    | .error .notFound | .error .notADirectory => findFirst files c fault rest
    | .error .permissionDenied => findFirst files c .permissionDenied rest
    | result => result

def search (files : Files.Tree) (c : Call) : Except Files.Fault (String × Call) :=
  if c.name.isEmpty then .error .notFound
  else if c.name.toList.contains '/' then find files c.name c
  else findFirst files c .notFound (c.searchedPaths)

def exec (programs : List (String × Program)) : (fuel : Nat) → Exec
  | 0 => fun _ _ => return .tooManyLinks
  | fuel + 1 => fun path c => do
    match find (← Action.files) path c with
    | .error fault => return fault
    | .ok (name, c) =>
      match programs.lookup name with
      | none => return .badProgram
      | some p =>
        Action.ask .renew
        Action.exit (← p (exec programs fuel) c)

def manyPrograms : Nat := 1000000000

def directories : List Files.Place :=
  [["bin"], ["dev"], ["etc"], ["home"], ["root"], ["sbin"], ["tmp"], ["usr"], ["usr", "bin"],
    ["usr", "local"], ["usr", "local", "bin"], ["usr", "local", "sbin"], ["usr", "sbin"], ["var"]]

def programDirectories : List Files.Place := [["bin"], ["usr", "bin"]]

/-- Puts programs where they are looked for, and what else every process finds. -/
def install (names : List String) (files : Files.Tree) : Files.Tree :=
  let withDirectories := directories.foldl (·.set · .directory) files
  let withDevices := deviceNames.foldl
    (fun files name => files.set (devicePlace name) (.file [] false)) withDirectories
  programDirectories.foldl (fun files dir =>
    names.foldl (fun files name =>
      files.set (dir ++ [name]) (.file (mark :: name.toUTF8.toList) true)) files) withDevices

end ImageLinker.Unix.Loading
