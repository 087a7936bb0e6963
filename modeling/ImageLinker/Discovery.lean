import ImageLinker.Invocation
import ImageLinker.Manifest

/-! Finding the compiler: installs lie at `<root>/<version>/<executable>`. -/
namespace ImageLinker.Discovery

def digitRuns : List Char → List (List Char)
  | [] => []
  | c :: rest =>
    if !c.isDigit then digitRuns rest
    else
      match rest, digitRuns rest with
      | d :: _, run :: runs => if d.isDigit then (c :: run) :: runs else [c] :: run :: runs
      | _, runs => [c] :: runs

/-- The number of a run of digits; one that needs more than 64 bits counts as zero. -/
def numberOfRun (digits : List Char) : Nat :=
  let n := digits.foldl (fun n c => 10 * n + (c.toNat - 48)) 0
  if n < UInt64.size then n else 0

structure Version where
  major : Nat
  minor : Nat
  patch : Nat
  deriving DecidableEq, Repr, Inhabited

namespace Version

def ofName (name : String) : Version :=
  let numbers := (digitRuns name.toList).map numberOfRun
  ⟨numbers[0]?.getD 0, numbers[1]?.getD 0, numbers[2]?.getD 0⟩

/-- Orders versions as long as minor and patch stay below 1000. -/
def score (v : Version) : Nat := v.major * 1000000 + v.minor * 1000 + v.patch

end Version

/-- A version's directory that holds a file. -/
structure Install where
  version : Version
  executable : String
  deriving DecidableEq, Repr, Inhabited

/-- The first of the installs with the highest score, of those that reach the minimum. -/
def newest (minimum : Version) (installs : List Install) : Option Install :=
  installs.foldl (fun best i =>
    if i.version.score < minimum.score then best
    else
      match best with
      | none => some i
      | some top => if i.version.score ≤ top.version.score then best else some i) none

def namesIn (files : Files.Tree) (path : String) : List String :=
  match files.resolve path, files.isDirectory path with
  | .ok place, true => files.namesAt place
  | _, _ => []

def executableIn (files : Files.Tree) (path : String) : Option String :=
  ((namesIn files path).map (Files.Path.join path)).find? files.isFile

def installsIn (files : Files.Tree) (root : String) : List Install :=
  (namesIn files root).filterMap fun name =>
    (executableIn files (Files.Path.join root name)).map fun path => ⟨.ofName name, path⟩

def newestIn (files : Files.Tree) (root minimum : String) : Option String :=
  (newest (.ofName minimum) (installsIn files root)).map (·.executable)

def locate (files : Files.Tree) (roots : List String) (minimum : String) : Option String :=
  roots.findSome? fun root => newestIn files root minimum

/-- Looks for an install, and once more after asking for one if there is none. -/
def discover (roots : List String) (minimum : String) (install : String → StateM Files.Tree Unit) :
    StateM Files.Tree (Option String) := do
  match locate (← get) roots minimum with
  | some path => return some path
  | none =>
    install minimum
    return locate (← get) roots minimum

/-- Where installs are kept: in the home directory, and below the directory for data. -/
def roots (vars : Variables) : List String :=
  let home := vars.lookup "HOME" <|> vars.lookup "USERPROFILE"
  let data := vars.lookup "XDG_DATA_HOME" <|>
    home.map fun home => Files.Path.join (Files.Path.join home ".local") "share"
  (home.map (Files.Path.join · ".svm")).toList ++ (data.map (Files.Path.join · "svm")).toList

def minimumVersion : String := "0.8.28"

/-- Asks a build tool for a compiler. That this fails shows in the search that follows. -/
def installWith (host : Host) (limit : Duration) (version : String) : StateM Files.Tree Unit := do
  let _ ← host.run ⟨"forge", ["build", "--use=" ++ version], limit⟩

end Discovery

namespace Manifest

def timeout (m : Manifest) : Duration := .ofSeconds m.timeoutSeconds

/-- The compiler program: the one that is set, else the newest install, else a name to be looked up
when it is run. -/
def compilerProgram (m : Manifest) (vars : Variables) (host : Host) : StateM Files.Tree String := do
  match m.compiler with
  | some program => return program
  | none =>
    let found ← Discovery.discover (Discovery.roots vars) Discovery.minimumVersion
      (Discovery.installWith host m.timeout)
    return found.getD "solc"

end Manifest

end ImageLinker
