import ImageLinker.Tools.Basic
import ImageLinker.Unix.Real

/-! Tools that wait, and tools that start others. -/
namespace ImageLinker.Tools

open Unix Action

def secondsOf? : List Char → Option Nat
  | [] | ['s'] => some 1
  | ['m'] => some 60
  | ['h'] => some 3600
  | ['d'] => some 86400
  | _ => none

/-- How long a number with a unit asks to wait. -/
inductive Interval where
  | nanoseconds (count : Nat)
  | endless
  deriving DecidableEq, Repr, Inhabited

def interval? (text : String) : Option Interval := do
  let r ← Real.read 64 text.toList
  let factor ← secondsOf? r.rest
  match r.value with
  | .finite negative num den =>
    if negative && num != 0 then none
    else
      let nanoseconds := num * factor * 1000000000
      some (.nanoseconds ((nanoseconds + den - 1) / den))
  | .infinite false => some .endless
  | _ => none

def sleep : Program := withOptions [] fun tool o => do
  if o.operands.isEmpty then
    complain tool ("missing operand" ++ advice tool)
    return 1
  let intervals := o.operands.map interval?
  let wrong := (o.operands.zip intervals).filter fun (_, i) => i.isNone
  if !wrong.isEmpty then
    wrong.forM fun (text, _) => complain tool ("invalid time interval " ++ Quoting.literal text)
    let _ ← ask (.write 2 ("Try '" ++ tool ++ " --help' for more information.\n"))
    return 1
  if intervals.contains (some .endless) then stall
  let counts := intervals.filterMap fun i =>
    match i with
    | some (.nanoseconds n) => some n
    | _ => none
  ask (.sleep (counts.foldl (· + ·) 0))
  return 0

/-- Becomes another program. The status tells why that cannot be. -/
def launch (tool : String) (exec : Exec) (c : Call) : Action Nat := do
  let fault ← c.search exec
  complain tool (Quoting.literal c.name ++ ": " ++ fault.reason)
  return if fault == .notFound then 127 else 126

def pipeDescriptors : Nat × Nat := (10, 11)

def outputOf (exec : Exec) (environment : Environment) (command : String) : Action String := do
  let (source, drain) ← ask .pipe
  let (read, write) := pipeDescriptors
  ask (.attach read (some source))
  ask (.attach write (some drain))
  let work : Action Nat := do
    ask (.attach 1 (some drain))
    let _ ← exec "/bin/sh" { name := "sh", arguments := ["-c", command], environment }
    return 127
  let _ ← fork work.toProcess
  ask (.attach write none)
  let (text, _) ← ({ descriptor := read } : Source).rest manyPieces []
  ask (.attach read none)
  let _ ← ask (.wait .steady)
  return text

/-- Splits a text into words at blanks that no quotes hide. -/
def words : (quote : Option Char) → (word : Option (List Char)) → List Char → List String
  | _, word, [] => (word.map fun w => String.ofList w.reverse).toList
  | some q, word, c :: cs =>
    if c == q then words none (some (word.getD [])) cs
    else words (some q) (some (c :: word.getD [])) cs
  | none, word, c :: cs =>
    if Text.isSpace c then
      (word.map fun w => String.ofList w.reverse).toList ++ words none none cs
    else if c == '\'' || c == '"' then words (some c) (some (word.getD [])) cs
    else words none (some (c :: word.getD [])) cs

def withVariable (name value : String) (e : Environment) : Environment :=
  if e.any (·.1 == name) then e.map fun (n, v) => if n == name then (n, value) else (n, v)
  else e ++ [(name, value)]

def assignment? (text : String) : Option (String × String) :=
  let name := text.toList.takeWhile (· != '=')
  match text.toList.drop name.length with
  | _ :: value => some (String.ofList name, String.ofList value)
  | [] => none

def envKinds : List OptionKind :=
  [⟨'i', "ignore-environment", .nothing⟩, ⟨'0', "null", .nothing⟩, ⟨'u', "unset", .text⟩,
    ⟨'C', "chdir", .text⟩, ⟨'S', "split-string", .text⟩, ⟨'v', "debug", .nothing⟩]

/-- Puts the words of a text in the place of the option that asks for that. -/
def splitArguments (arguments : List String) : List String :=
  match arguments with
  | a :: rest =>
    match a.toList with
    | '-' :: 'S' :: cs =>
      if cs.isEmpty then
        match rest with
        | text :: rest => words none none text.toList ++ rest
        | [] => arguments
      else words none none cs ++ rest
    | _ => arguments
  | [] => []

def env : Program := fun exec c => do
  match Options.read envKinds false (splitArguments c.arguments) with
  | .error text =>
    complain c.name (text ++ advice c.name)
    return 125
  | .ok o =>
    let (clears, operands) := match o.operands with
      | "-" :: rest => (true, rest)
      | operands => (o.has 'i', operands)
    let start := if clears then [] else c.environment
    let removed := (o.given.filter (·.1 == 'u')).map (·.2)
    let start := start.filter fun (name, _) => !removed.contains name
    let assigned := operands.takeWhile fun a => (assignment? a).isSome
    let environment := (assigned.filterMap assignment?).foldl
      (fun e (name, value) => withVariable name value e) start
    match o.value? 'C' with
    | none => pure ()
    | some path =>
      match ← changeFiles fun files => do
          match ← files.lookup (Text.decode path) with
          | .directory =>
            return { files with workingDirectory := ← files.resolve (Text.decode path) }
          | .file .. => throw .notADirectory with
      | .ok _ => pure ()
      | .error fault =>
        complain c.name
          ("cannot change directory to " ++ Quoting.inQuotes path ++ ": " ++ fault.reason)
        exit 125
    match operands.drop assigned.length with
    | [] =>
      let ending := if o.has '0' then "\x00" else "\n"
      let lines := environment.map fun (name, value) => name ++ "=" ++ value ++ ending
      print c.name (String.join lines)
      return 0
    | name :: arguments => launch c.name exec { name, arguments, environment }

def printenv : Program := fun _ c => do
  match Options.read [⟨'0', "null", .nothing⟩] false c.arguments with
  | .error text =>
    complain c.name (text ++ advice c.name)
    return 2
  | .ok o =>
    let ending := if o.has '0' then "\x00" else "\n"
    if o.operands.isEmpty then
      let lines := c.environment.map fun (name, value) => name ++ "=" ++ value ++ ending
      print c.name (String.join lines)
      return 0
    let values := o.operands.filterMap c.valueOf?
    print c.name (String.join (values.map (· ++ ending)))
    return if values.length = o.operands.length then 0 else 1

/-- Waits for the end of a child, and sends it a signal when the watcher has told that the time is
over. -/
def awaitEnd (child : Nat) (watcher : Option Nat) (number : Nat) (keepsStatus : Bool) :
    (fuel : Nat) → (isOver : Bool) → Action Nat
  | 0, _ => return 125
  | fuel + 1, isOver => do
    match ← ask (.wait .alert) with
    | .notYet =>
      let _ ← ask (.work 0)
      let _ ← ask (.signal child number)
      awaitEnd child watcher number keepsStatus fuel true
    | .noChild => return 125
    | .ended id ending =>
      if id != child then awaitEnd child watcher number keepsStatus fuel isOver
      else
        watcher.forM fun w => do
          let _ ← ask (.signal w Signal.kill)
        match ending with
        | .exited status => return if isOver && !keepsStatus then 124 else status
        | .signalled n =>
          if !isOver || n = Signal.kill then finish (.signalled n)
          return if keepsStatus then 128 + n else 124

/-- Runs another program, and ends it when a time is over. -/
def timeout : Program := fun exec c => do
  let kinds : List OptionKind :=
    [⟨'s', "signal", .text⟩, ⟨'k', "kill-after", .text⟩, ⟨'v', "verbose", .nothing⟩,
      ⟨'\x01', "preserve-status", .nothing⟩, ⟨'\x02', "foreground", .nothing⟩]
  let refuse := fun (text : String) => do
    complain c.name (text ++ advice c.name)
    return 125
  match Options.read kinds false c.arguments with
  | .error text => refuse text
  | .ok o =>
    match o.operands with
    | text :: name :: arguments =>
      let wanted := o.value? 's'
      let number := match wanted with
        | none => some Signal.terminate
        | some text =>
          let text := text.toUpper
          (List.range (Signal.last + 1)).find? fun n =>
            toString n == text || Signal.label n == text || "SIG" ++ Signal.label n == text
      match interval? text, number with
      | none, _ => refuse ("invalid time interval " ++ Quoting.literal text)
      | _, none => refuse (Quoting.literal (wanted.getD "") ++ ": invalid signal")
      | some limit, some number =>
        let nanoseconds := match limit with
          | .nanoseconds n => n
          | .endless => 0
        let call : Call := { name, arguments, environment := c.environment }
        let work : Action Nat := do
          let fault ← call.search exec
          complain c.name ("failed to run command " ++ Quoting.literal name ++ ": " ++ fault.reason)
          return if fault == .notFound then 127 else 126
        let self := (← ask .identity).self
        let child ← fork work.toProcess
        let _ ← ask (.dispose Signal.alarm .caught)
        let watch : Action Nat := do
          ask (.sleep nanoseconds)
          let _ ← ask (.signal self Signal.alarm)
          return 0
        let watcher ← if nanoseconds = 0 then pure none else some <$> fork watch.toProcess
        awaitEnd child watcher number (o.has '\x01') 8 false
    | _ =>
      let _ ← ask (.write 2 ("Try '" ++ c.name ++ " --help' for more information.\n"))
      return 125

end ImageLinker.Tools
