import ImageLinker.Shell.Builtins.Basic

/-! Commands for the present directory and for the modes of new files. -/
namespace ImageLinker.Shell.Builtins

open Unix Run

/-- The path of names on the way from the root, one slash at the end not written. -/
def pathOfNames (names : List String) : String := "/" ++ "/".intercalate names

/-- Follows a path by its names alone: two points take the last name away. -/
def followNames (names : List String) : List String → List String
  | [] => names
  | piece :: rest =>
    if piece = "" ∨ piece = "." then followNames names rest
    else if piece = ".." then followNames names.dropLast rest
    else followNames (names ++ [piece]) rest

def names (path : String) : List String := followNames [] (Files.Path.pieces path)

/-- The path to a directory by the names that lead to it. Two slashes at the start stay. -/
def logicalPath (present path : String) : String :=
  let doubled := fun (p : String) => match p.toList with
    | '/' :: '/' :: rest => rest.head? != some '/'
    | _ => false
  let start := if Files.Path.isAbsolute path then [] else names present
  let root := if Files.Path.isAbsolute path then path else present
  let followed := pathOfNames (followNames start (Files.Path.pieces path))
  if doubled root then "/" ++ followed else followed

def physicalPath : Run String := do
  return pathOfNames ((← files).workingDirectory.map Text.encode)

def goTo (path : String) : Run Bool := do
  let files ← files
  match files.resolve (Text.decode path) with
  | .error _ => return false
  | .ok place =>
    if files.get? place != some .directory then return false
    let _ ← ask (.files fun files => { files with workingDirectory := place })
    return true

def enter (path : String) (physical : Bool) : Run Bool := do
  let before := (← get).directory
  let target := if physical then path else logicalPath before path
  if !(← goTo target) then return false
  let present ← if physical then physicalPath else pure target
  assign "OLDPWD" before true
  modify fun s => { s with directory := present }
  assign "PWD" present true
  return true

def isAnchored (path : String) : Bool :=
  Files.Path.isAbsolute path || [".", ".."].contains ((Files.Path.pieces path).head?.getD "")

def searched (files : Files.Tree) (path : String) : List String → Option (String × Bool)
  | [] => none
  | dir :: rest =>
    let candidate := pathIn dir path
    if files.isDirectory (Text.decode candidate) then some (candidate, !dir.isEmpty)
    else searched files path rest

def isPhysical (options : List (Char × String)) : Bool := (options.getLast?.map (·.1)) == some 'P'

def cd : Builtin := fun arguments => do
  let (options, operands) ← options "LP" arguments
  let physical := isPhysical options
  let (target, shows) ← match operands.head? with
    | none => pure ((← value? "HOME").getD "", false)
    | some "-" => pure ((← value? "OLDPWD").getD "", true)
    | some path => pure (path, false)
  let directories := ((← value? "CDPATH").map searchPath).getD []
  let files ← files
  let isSearched := !isAnchored target
  let target := if target.isEmpty then "." else target
  let found := if isSearched then searched files target directories else none
  let (path, shows) := match found with
    | some (path, isElsewhere) => (path, shows || isElsewhere)
    | none => (target, shows)
  if !(← enter path physical) then fail ("can't cd to " ++ target)
  if shows then print ((← get).directory ++ "\n")
  return 0

def pwd : Builtin := fun arguments => do
  let (options, _) ← options "LP" arguments
  if isPhysical options then print ((← physicalPath) ++ "\n") else print ((← get).directory ++ "\n")
  return 0

def octalText (n : Nat) : String :=
  let ds := Nat.toDigits 8 n
  String.ofList (List.replicate (4 - ds.length) '0' ++ ds)

def modeLetters (bits : Nat) : String :=
  String.ofList ([(4, 'r'), (2, 'w'), (1, 'x')].filterMap fun (bit, c) =>
    if bits &&& bit != 0 then some c else none)

def symbolicMask (mask : Nat) : String :=
  let left := 0o777 - (mask &&& 0o777)
  "u=" ++ modeLetters (left / 64) ++ ",g=" ++ modeLetters (left / 8 % 8) ++ ",o=" ++
    modeLetters (left % 8)

def usersMask (letters : List Char) : Nat :=
  let bit := fun (c : Char) => match c with
    | 'u' => 0o700
    | 'g' => 0o070
    | 'o' => 0o007
    | _ => 0o777
  if letters.isEmpty then 0o777 else letters.foldl (fun n c => n ||| bit c) 0

def modeBits (letters : List Char) : Nat :=
  letters.foldl (fun n c => n ||| match c with
    | 'r' => 0o444
    | 'w' => 0o222
    | 'x' | 'X' => 0o111
    | _ => 0) 0

/-- Changes modes as one clause says: users, a sign, and letters, the last two as often as
wanted. -/
def changeModes (users : Nat) : (fuel : Nat) → (modes : Nat) → List Char → Option Nat
  | 0, modes, _ => some modes
  | _ + 1, modes, [] => some modes
  | fuel + 1, modes, sign :: rest =>
    let letters := rest.takeWhile "rwxXst".toList.contains
    let bits := modeBits letters &&& users
    let rest := rest.drop letters.length
    match sign with
    | '+' => changeModes users fuel (modes ||| bits) rest
    | '-' => changeModes users fuel (modes - (modes &&& bits)) rest
    | '=' => changeModes users fuel (modes - (modes &&& users) ||| bits) rest
    | _ => none

def modesAfter (modes : Nat) (text : String) : Option Nat :=
  (text.splitOn ",").foldlM (fun modes clause =>
    let cs := clause.toList
    let users := cs.takeWhile "ugoa".toList.contains
    match cs.drop users.length with
    | [] => none
    | rest => changeModes (usersMask users) (rest.length + 1) modes rest) modes

def umask : Builtin := fun arguments => do
  let (options, operands) ← options "S" arguments
  let mask ← ask (.mask none)
  match operands.head? with
  | none => print ((if options.isEmpty then octalText mask else symbolicMask mask) ++ "\n")
  | some text =>
    if text.toList.head?.any Char.isDigit then
      let (n, rest) := Text.numberPrefix 8 text.length none text.toList
      if !rest.isEmpty then fail ("Illegal number: " ++ text)
      let _ ← ask (.mask (some (n.getD 0 &&& 0o777)))
    else
      match modesAfter (0o777 - (mask &&& 0o777)) text with
      | some modes =>
        let _ ← ask (.mask (some (0o777 - modes)))
      | none => fail ("Illegal mode: " ++ text)
  return 0

end ImageLinker.Shell.Builtins
