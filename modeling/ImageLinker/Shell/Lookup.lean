import ImageLinker.Shell.Builtins.Basic
import ImageLinker.Shell.Reader.Commands

/-! What the name of a command means: a function, a command of the shell itself, or a program. -/
namespace ImageLinker.Shell

open Unix

inductive Meaning where
  | builtin (kind : BuiltinKind)
  | function (f : Function)
  | program (path : String)
  | unknown (fault : Files.Fault)
  deriving Inhabited

namespace Lookup

open Run

def reason : Files.Fault → String
  | .notFound | .notADirectory => "not found"
  | fault => fault.reason

/-- The path of the first program of a name in directories. Of the faults, the last one that is more
than an absence counts. -/
def search (files : Files.Tree) (name : String) : (fault : Files.Fault) → List String →
    Except Files.Fault String
  | fault, [] => .error fault
  | fault, dir :: rest =>
    let path := pathIn dir name
    match files.lookup (Text.decode path) with
    | .ok (.file _ true) => .ok path
    | .ok _ => search files name .permissionDenied rest
    | .error .notFound | .error .notADirectory => search files name fault rest
    | .error fault => search files name fault rest

def directories : Run (List String) := return searchPath ((← value? "PATH").getD "")

def program (name : String) : Run Meaning := do
  match (← get).found.lookup name with
  | some path => return .program path
  | none =>
    match search (← files) name .notFound (← directories) with
    | .ok path =>
      modify fun s => { s with found := (name, path) :: s.found }
      return .program path
    | .error fault => return .unknown fault

def own? (name : String) (withFunctions : Bool) : Run (Option Meaning) := do
  if name.toList.contains '/' then return none
  let s ← get
  match if withFunctions then s.functions.lookup name else none with
  | some f => return some (.function f)
  | none => return (Builtins.kinds.lookup name).map .builtin

/-- Looks ahead for the program of a command whose name is written out, and keeps in mind where it
was found. -/
def prepare : Command → Run Unit
  | .simple _ _ ([.literal name false] :: _) _ => do
    if isName name && (← own? name true).isNone then
      let _ ← program name
  | _ => return

/-- What a name means. Another search path may be given. -/
def meaning (name : String) (withFunctions : Bool) (path : Option String) : Run Meaning := do
  if name.toList.contains '/' then return .program name
  match ← own? name withFunctions, path with
  | some m, _ => return m
  | none, none => program name
  | none, some path =>
    match search (← files) name .notFound (searchPath path) with
    | .ok path => return .program path
    | .error fault => return .unknown fault

def standardPath : String := "/usr/local/sbin:/usr/local/bin:/usr/sbin:/usr/bin:/sbin:/bin"

def isProgram (name : String) : Run Bool := do
  match (← files).lookup (Text.decode name) with
  | .ok (.file _ executable) => return executable
  | _ => return false

def describe (inWords : Bool) (path : Option String) (name : String) : Run Int := do
  let s ← get
  let say := fun (words brief : String) => do
    print (if inWords then name ++ " is " ++ words ++ "\n" else brief ++ "\n")
    return (0 : Int)
  let isMissing := do
    if inWords then print (name ++ ": not found\n")
    return (127 : Int)
  if keywords.contains name then say "a shell keyword" name
  else
    match s.aliases.lookup name with
    | some value =>
      if inWords then say ("an alias for " ++ value) ""
      else say "" ("alias " ++ name ++ "=" ++ Builtins.quote value)
    | none =>
      match s.found.lookup name, ← meaning name true path with
      | some found, .program _ => say ("a tracked alias for " ++ found) found
      | none, .program found =>
        if name.toList.contains '/' && !(← isProgram name) then isMissing else say found found
      | _, .function _ => say "a shell function" name
      | _, .builtin kind =>
        say (if kind.isSpecial then "a special shell builtin" else "a shell builtin") name
      | _, .unknown _ => isMissing

def type : Builtin := fun arguments => do
  let (_, names) ← Builtins.options "" arguments
  let statuses ← names.mapM (describe true none)
  return statuses.foldl max 0

/-- Shows where programs were found, or looks for some. -/
def hash : Builtin := fun arguments => do
  let (options, names) ← Builtins.options "r" arguments
  if !options.isEmpty then
    modify fun s => { s with found := [] }
    return 0
  if names.isEmpty then
    (inGroups 31 (← get).found).forM fun (_, path) => print (path ++ "\n")
    return 0
  let oks ← names.mapM fun name => do
    modify fun s => { s with found := s.found.filter (·.1 != name) }
    match ← meaning name true none with
    | .unknown fault =>
      warn (name ++ ": " ++ reason fault)
      return false
    | _ => return true
  return if oks.all id then 0 else 1

end Lookup

end ImageLinker.Shell
