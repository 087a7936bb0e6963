import ImageLinker.Unix.Process

/-! Programs: what they are given, what they do, and how a process becomes one. -/
namespace ImageLinker.Unix

abbrev Environment := List (String × String)

structure Call where
  name : String
  arguments : List String
  environment : Environment := []
  deriving DecidableEq, Repr, Inhabited

namespace Call

def valueOf? (c : Call) (name : String) : Option String := c.environment.lookup name

end Call

/-- Becomes the program at a path. There is an answer only if that cannot be. -/
abbrev Exec := (path : String) → Call → Action Files.Fault

abbrev Program := Exec → Call → Action Nat

def searchPath (path : String) : List String := path.splitOn ":"

def pathIn (dir name : String) : String := if dir.isEmpty then name else dir ++ "/" ++ name

namespace Call

def standardPath : String := "/bin:/usr/bin"

def searchedPaths (c : Call) : List String :=
  (searchPath ((c.valueOf? "PATH").getD standardPath)).map (pathIn · c.name)

/-- Becomes the program at the first of some paths that can be run. A file that is no program is a
script. The fault of one that is there counts more than that of one that is not. -/
def become (exec : Exec) (c : Call) : (fault : Files.Fault) → (paths : List String) →
    Action Files.Fault
  | fault, [] => return fault
  | fault, path :: rest => do
    match ← exec path c with
    | .notFound | .notADirectory => become exec c fault rest
    | .badProgram => exec "/bin/sh" { c with name := "/bin/sh", arguments := path :: c.arguments }
    | .permissionDenied => become exec c .permissionDenied rest
    | other => return other

/-- Becomes the program that a name leads to. A name with a slash is a path. -/
def search (exec : Exec) (c : Call) : Action Files.Fault :=
  if c.name.isEmpty then return .notFound
  else if c.name.toList.contains '/' then c.become exec .notFound [c.name]
  else c.become exec .notFound c.searchedPaths

end Call

end ImageLinker.Unix
