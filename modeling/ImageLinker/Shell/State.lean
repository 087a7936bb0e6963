import ImageLinker.Shell.Reader
import ImageLinker.Unix.Program
import ImageLinker.Unix.Text

/-!
What a shell knows while it runs. Its work asks the system for things, changes what it knows, and
may come to a stop; a command that merely fails has a status.
-/
namespace ImageLinker.Shell

open Unix

inductive Setting where
  | errexit
  | noglob
  | ignoreeof
  | interactive
  | monitor
  | noexec
  | stdin
  | xtrace
  | verbose
  | vi
  | emacs
  | noclobber
  | allexport
  | notify
  | nounset
  | privileged
  | nolog
  | debug
  deriving DecidableEq, Repr, Inhabited

namespace Setting

def table : List (Setting × String × Option Char) :=
  [(.errexit, "errexit", some 'e'), (.noglob, "noglob", some 'f'),
    (.ignoreeof, "ignoreeof", some 'I'), (.interactive, "interactive", some 'i'),
    (.monitor, "monitor", some 'm'),
    (.noexec, "noexec", some 'n'), (.stdin, "stdin", some 's'), (.xtrace, "xtrace", some 'x'),
    (.verbose, "verbose", some 'v'), (.vi, "vi", some 'V'), (.emacs, "emacs", some 'E'),
    (.noclobber, "noclobber", some 'C'), (.allexport, "allexport", some 'a'),
    (.notify, "notify", some 'b'), (.nounset, "nounset", some 'u'),
    (.privileged, "privileged", some 'p'), (.nolog, "nolog", none), (.debug, "debug", none)]

def ofName? (name : String) : Option Setting := (table.find? (·.2.1 == name)).map (·.1)

def ofLetter? (letter : Char) : Option Setting := (table.find? (·.2.2 == some letter)).map (·.1)

def letters (settings : List Setting) : String :=
  String.ofList (table.reverse.filterMap fun (s, _, letter) =>
    if settings.contains s then letter else none)

end Setting

/-- A variable may be marked without having a value. -/
structure Variable where
  value : Option String := none
  exported : Bool := false
  isReadonly : Bool := false
  deriving DecidableEq, Repr, Inhabited

/-- What is put back at the end of a function. -/
inductive Saved where
  | variable (name : String) (before : Option Variable)
  | settings (before : List Setting)
  deriving DecidableEq, Repr, Inhabited

/-- Commands are passed over until this is done with. -/
inductive Skip where
  | loops (count : Nat) (nextRound : Bool)
  | call (givenStatus : Bool)
  deriving DecidableEq, Repr, Inhabited

/-- Processes that were started together. -/
structure Job where
  number : Nat
  members : List (Nat × Option Ending)
  waited : Bool := false
  deriving DecidableEq, Repr, Inhabited

/-- Why a shell goes no further. -/
inductive Stop where
  | exit
  | fault
  | done
  deriving DecidableEq, Repr, Inhabited

structure Function where
  line : Nat
  body : Command
  deriving Inhabited

structure State where
  name : String
  positional : List String := []
  vars : List (String × Variable) := []
  functions : List (String × Function) := []
  aliases : List (String × String) := []
  settings : List Setting := []
  rootId : Nat := 0
  status : Int := 0
  keptStatus : Option Int := none
  outputStatus : Int := 0
  skip : Option Skip := none
  loops : Nat := 0
  depth : Nat := 0
  /-- The values that functions and commands will put back, the innermost first. -/
  locals : List (List Saved) := []
  line : Nat := 0
  command : Option String := none
  traps : List (Nat × String) := []
  handled : List Nat := []
  alwaysIgnored : List Nat := []
  pending : List Nat := []
  jobs : List Job := []
  background : Option Nat := none
  directory : String := "/"
  optionIndex : Nat := 1
  optionOffset : Option Nat := none
  found : List (String × String) := []
  writeFault : Bool := false
  /-- Where descriptors led before redirections that will be undone, the innermost first. -/
  redirected : List (List (Nat × Option Nat)) := []
  nextPrivate : Nat := 10
  deriving Inhabited

abbrev Run (α : Type) := ExceptT Stop (StateT State Action) α

namespace Run

def act (action : Action α) : Run α := fun s next => action fun a => next (.ok a, s)

def ask (request : Request) : Run request.Answer := act (Action.ask request)

def files : Run Files.Tree := act Action.files

def identity : Run Identity := ask .identity

def finish (ending : Ending) : Run α := fun _ => Action.finish ending

/-- Prints on the output. That it could not be done is told of at the end of the command. -/
def print (text : String) : Run Unit := do
  if !text.isEmpty then
    if let .error _ ← ask (.write 1 text) then modify fun s => { s with writeFault := true }

def complain (text : String) : Run Unit := do let _ ← ask (.write 2 text)

def warn (text : String) : Run Unit := do
  let s ← get
  let command := match s.command with
    | some name => name ++ ": "
    | none => ""
  complain s!"{s.name}: {s.line}: {command}{text}\n"

def fail (text : String) : Run α := do
  warn text
  modify fun s => { s with status := 2 }
  throw .fault

def has (setting : Setting) : Run Bool := return (← get).settings.contains setting

def largest : Nat := UInt64.size / 2 - 1

/-- A number without sign. One that is too large wraps around. -/
def number? (text : String) : Option Int :=
  (Unix.Text.decimal? text.toList).map fun n => Int.bmod (min n largest) UInt32.size

def number (text : String) : Run Int := do
  match number? text with
  | some n => return n
  | none => fail ("Illegal number: " ++ text)

def valueIn? (s : State) (name : String) : Option String :=
  (s.vars.lookup name).bind (·.value)

def value? (name : String) : Run (Option String) := return valueIn? (← get) name

def put (name : String) (v : Variable) : Run Unit := modify fun s =>
  if s.vars.any (·.1 == name) then
    { s with
      vars := s.vars.map fun (other, old) => if other == name then (name, v) else (other, old) }
  else { s with vars := (name, v) :: s.vars }

def drop (name : String) : Run Unit := modify fun s =>
  { s with vars := s.vars.filter (·.1 != name) }

def notice (name : String) (value : Option String) : Run Unit := do
  if name = "OPTIND" then
    let index ← number (value.getD "")
    modify fun s => { s with optionIndex := max 1 index.toNat, optionOffset := none }
  else if name = "PATH" then modify fun s => { s with found := [] }

def checkWritable (name : String) : Run Unit := do
  if (((← get).vars.lookup name).getD {}).isReadonly then fail (name ++ ": is read only")

def assign (name value : String) (exported : Bool := false) : Run Unit := do
  checkWritable name
  notice name (some value)
  let before := ((← get).vars.lookup name).getD {}
  let exported := exported || before.exported || (← has .allexport)
  put name { before with value := some value, exported }

def assignNamed (name value : String) : Run Unit := do
  if !isName name then fail (name ++ ": bad variable name")
  assign name value

def unset (name : String) : Run Unit := do
  if !isName name then fail (name ++ ": bad variable name")
  checkWritable name
  if ((← get).vars.lookup name).isSome then
    if name != "OPTIND" then notice name none
    drop name

def mark (name : String) (change : Variable → Variable) : Run Unit := do
  if !isName name then fail (name ++ ": bad variable name")
  put name (change (((← get).vars.lookup name).getD {}))

def save (saved : Saved) : Run Unit := modify fun s =>
  match s.locals with
  | frame :: rest => { s with locals := (saved :: frame) :: rest }
  | [] => s

/-- Keeps the value of a variable for the end of the function, and gives it another one if one is
given. -/
def localize (name : String) (value : Option String) (exported : Bool) : Run Unit := do
  let before := (← get).vars.lookup name
  match value with
  | some value => assign name value exported
  | none => if before.isNone then mark name id
  save (.variable name before)

def restore : Saved → Run Unit
  | .settings before => modify fun s => { s with settings := before }
  | .variable name none => drop name
  | .variable name (some before) => do
    notice name before.value
    put name before

/-- Ends frames of saved values until so many are left. -/
def restoreFrames (left : Nat) : Run Unit := do
  let ended := (← get).locals.take ((← get).locals.length - left)
  modify fun s => { s with locals := s.locals.drop ended.length }
  ended.flatten.forM restore

def bucket (groups : Nat) (name : String) : Nat :=
  let cs := name.toList
  cs.foldl (· + ·.toNat) (16 * (cs.head?.map Char.toNat).getD 0) % groups

/-- Entries, the newest first, in the order of their groups, and older ones first in each. -/
def inGroups (groups : Nat) (entries : List (String × α)) : List (String × α) :=
  entries.reverse.mergeSort fun a b => bucket groups a.1 ≤ bucket groups b.1

def variableGroups : Nat := 39

def environment (s : State) : Environment :=
  (inGroups variableGroups s.vars).filterMap fun (name, v) =>
    if v.exported then v.value.map (name, ·) else none

end Run

end ImageLinker.Shell
