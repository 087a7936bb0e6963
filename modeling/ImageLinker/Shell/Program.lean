import ImageLinker.Shell.Execution

/-! A shell as a program: what it is given, and where its script comes from. -/
namespace ImageLinker.Shell

open Unix Run

namespace Program

def initialVariables (parent : Nat) : List (String × String) :=
  [("IFS", " \t\n"), ("OPTIND", "1"), ("PATH", Lookup.standardPath), ("PPID", toString parent),
    ("PS1", "# "), ("PS2", "> "), ("PS4", "+ ")]

def keptVariables : List String := ["IFS", "OPTIND", "PPID"]

def initialState (i : Identity) (c : Call) : State :=
  let given := c.environment.filter fun (name, _) => isName name && !keptVariables.contains name
  let initial := (initialVariables i.parent).filter fun (name, _) => (given.lookup name).isNone
  { name := c.name
    rootId := i.self
    vars := (initial.map fun (name, value) => (name, { value := some value })) ++
      given.reverse.map fun (name, value) => (name, { value := some value, exported := true }) }

/-- Finds out the present directory. A variable may tell the names that led to it. -/
def findDirectory : Run Unit := do
  let files ← files
  let physical ← Builtins.physicalPath
  let told := ((← value? "PWD").getD "")
  let isRight := Files.Path.isAbsolute told &&
    (match files.resolve (Text.decode told) with
    | .ok place => place == files.workingDirectory
    | .error _ => false)
  let present := if isRight then told else physical
  modify fun s => { s with directory := present }
  assign "PWD" present true

/-- The letters in one word, of which `c` says that the script is an argument. -/
def optionLetters (on : Bool) : List Char → List String → (isText : Bool) →
    Run (List String × Bool)
  | [], rest, isText => return (rest, isText)
  | c :: cs, rest, isText => do
    if c = 'c' then optionLetters on cs rest true
    else if c = 'l' then optionLetters on cs rest isText
    else if c = 'o' then
      let rest ← Builtins.settingsInWord on ['o'] rest
      optionLetters on cs rest isText
    else
      Builtins.switchLetter on c
      optionLetters on cs rest isText

def options : (fuel : Nat) → List String → (isText : Bool) → Run (List String × Bool)
  | 0, arguments, isText => return (arguments, isText)
  | _ + 1, [], isText => return ([], isText)
  | fuel + 1, a :: rest, isText => do
    match a.toList with
    | ['-'] | ['-', '-'] => return (rest, isText)
    | '-' :: cs => do
      let (rest, isText) ← optionLetters true cs rest isText
      options fuel rest isText
    | '+' :: cs => do
      let (rest, isText) ← optionLetters false cs rest isText
      options fuel rest isText
    | _ => return (a :: rest, isText)

def manyCommands : Nat := 1000000000

variable (exec : Exec)

def doFile (text : String) : Run Unit := do
  let _ ← Execution.lines exec {} manyCommands { rest := text.toList } 0

def readFile (path : String) : Run String := do
  let channel ← Redirections.open? path .read "open" "No such file"
  let n ← Redirections.privateDescriptor
  ask (.attach n (some channel))
  let text ← Execution.readAll n Execution.manyPieces []
  ask (.attach n none)
  return text

def work (arguments : List String) : Run Unit := do
  findDirectory
  let (operands, isText) ← options (arguments.length + 1) arguments false
  let readsInput ← has .stdin
  let name := fun (operands : List String) => do
    match operands with
    | name :: positional => modify fun s => { s with name, positional }
    | [] => pure ()
  match operands, isText with
  | [], true => fail "-c requires an argument"
  | script :: rest, true =>
    name rest
    let _ ← Execution.evalText exec {} manyCommands script
    if readsInput then doFile exec (← Execution.readAll 0 Execution.manyPieces [])
  | [], false =>
    Builtins.switch true .stdin
    doFile exec (← Execution.readAll 0 Execution.manyPieces [])
  | operands, false =>
    if readsInput then
      modify fun s => { s with positional := operands }
      doFile exec (← Execution.readAll 0 Execution.manyPieces [])
    else
      let text ← readFile (operands.head?.getD "")
      name operands
      doFile exec text

end Program

def program : Unix.Program := fun exec c => do
  let identity ← Action.ask .identity
  let work := Execution.ending exec Program.manyCommands (Program.work exec c.arguments)
  fun next => work (Program.initialState identity c) fun
    | (.ok status, _) => next status
    | (.error _, _) => next 2

end ImageLinker.Shell
