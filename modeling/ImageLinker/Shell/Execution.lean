import ImageLinker.Shell.Builtins.Conditions
import ImageLinker.Shell.Builtins.Limits
import ImageLinker.Shell.Builtins.Places
import ImageLinker.Shell.Builtins.Printing
import ImageLinker.Shell.Builtins.Processes
import ImageLinker.Shell.Builtins.Variables
import ImageLinker.Shell.Lookup
import ImageLinker.Shell.Redirections

/-!
Doing what a script says. A command is done here or by a child, and its status decides what is done
next.
-/
namespace ImageLinker.Shell.Execution

open Unix Run

structure Manner where
  /-- Its status decides something, so a failure does not end the script. -/
  tested : Bool := false
  /-- Nothing is done behind it, so another program may take the place of the shell. -/
  last : Bool := false
  deriving DecidableEq, Repr, Inhabited

def commandTime : Nat := 5000

def deepest : Nat := 1000

/-- Lets time pass, and takes in the signals that have come. -/
def poll (nanoseconds : Nat) : Run Unit := do
  let arrived ← ask (.work nanoseconds)
  if !arrived.isEmpty then modify fun s =>
    { s with pending := s.pending ++ arrived.filter (!s.pending.contains ·) }

def hasTraps : Run Bool := return (← get).traps.any fun (_, action) => !action.isEmpty

/-- What a loop does about commands that are passed over. -/
inductive LoopStep where
  | goesOn
  | leaves
  deriving DecidableEq, Repr, Inhabited

/-- Ends passing over at this loop, if it ends here. -/
def loopStep : Run LoopStep := do
  match (← get).skip with
  | none => return .goesOn
  | some (.call _) => return .leaves
  | some (.loops count nextRound) =>
    if count ≤ 1 then
      modify fun s => { s with skip := none }
      return if nextRound then .goesOn else .leaves
    else
      modify fun s => { s with skip := some (.loops (count - 1) nextRound) }
      return .leaves

def forgetParent : Run Unit := do
  let cleared := (← get).traps.filter fun (_, action) => !action.isEmpty
  modify fun s =>
    { s with
      traps := s.traps.filter fun (_, action) => action.isEmpty
      pending := []
      redirected := [] }
  cleared.forM fun (number, _) => do if number != 0 then Builtins.handle number

def withdraw (isFirst : Bool) : Run Unit := do
  [Signal.interrupt, Signal.quit].forM fun n => do let _ ← ask (.dispose n .ignored)
  if isFirst then
    if let .ok channel ← ask (.openFile "/dev/null" .read) then ask (.attach 0 (some channel))

def readAll (descriptor : Nat) : (fuel : Nat) → (texts : List String) → Run String
  | 0, texts => return String.join texts.reverse
  | fuel + 1, texts => do
    match ← ask (.read descriptor Action.blockSize none) with
    | .ok "" => return String.join texts.reverse
    | .ok text => readAll descriptor fuel (text :: texts)
    | .error .interrupted => readAll descriptor fuel texts
    | .error _ => return String.join texts.reverse

def manyPieces : Nat := 1000000000

def trace (capture : Command → Run String) (fields : List String) (isRedirected : Bool) :
    Run Unit := do
  let sign ← Expansion.documentText capture (Reader.document ((← value? "PS4").getD "+ "))
  let n ← if isRedirected then Redirections.errorsBefore else pure 2
  let _ ← ask (.write n (sign ++ " ".intercalate fields ++ "\n"))

variable (exec : Exec)

def tryPath (path : String) (c : Call) : Run Files.Fault := do
  match ← act (exec path c) with
  | .badProgram =>
    act (exec "/bin/sh" { c with name := "/bin/sh", arguments := path :: c.arguments })
  | fault => return fault

/-- Becomes the program in the first directory that has it. Of the faults, the last one that is more
than an absence counts. -/
def tryDirectories (c : Call) : (fault : Files.Fault) → List String → Run Files.Fault
  | fault, [] => return fault
  | fault, dir :: rest => do
    match ← tryPath exec (pathIn dir c.name) c with
    | .notFound | .notADirectory => tryDirectories c fault rest
    | other => tryDirectories c other rest

/-- Becomes another program, or ends with a status that tells why not. -/
def become (path : Option String) (name : String) (arguments : List String) : Run α := do
  let c : Call := { name, arguments, environment := environment (← get) }
  let fault ← if name.toList.contains '/' then tryPath exec name c
    else tryDirectories exec c .notFound (searchPath (path.getD ((← value? "PATH").getD "")))
  let isAbsent := [.notFound, .notADirectory, .nameTooLong, .tooManyLinks].contains fault
  modify fun s => { s with status := if isAbsent then 127 else 126 }
  warn (name ++ ": " ++ Lookup.reason fault)
  throw .done

/-- Takes back what commands have begun. An end keeps the status that it was given. -/
def windUp (stop : Option Stop) : Run Unit := do
  let s ← get
  let keeps := stop = some .exit || s.skip = some (.call false)
  match s.keptStatus with
  | some kept =>
    modify fun s => { s with status := if keeps then kept else s.status, keptStatus := none }
  | none => pure ()
  modify fun s => { s with skip := none, loops := 0 }
  Redirections.unwind 0
  restoreFrames 0

/-- What a simple command is found to be before all of its words are expanded. -/
structure Start where
  fields : List String
  /-- The word `command` and its options, where they stand in front of the name. -/
  passed : List String := []
  words : List Word
  own : Option Meaning := none
  isSpecial : Bool := false
  isLocal : Bool := false
  takesValues : Bool := false
  withFunctions : Bool := true
  path : Option String := none
  deriving Inhabited

/-- Goes past the options of `command`, of which the word itself has been read. None if it is to be
done itself. -/
def commandOperands (path : Option String) : (fuel : Nat) → List String →
    Option (List String × Option String)
  | 0, _ => none
  | _ + 1, [] => none
  | fuel + 1, a :: rest =>
    match a.toList with
    | ['-', '-'] => if rest.isEmpty then none else some (rest, path)
    | '-' :: c :: cs =>
      if (c :: cs).all (· == 'p') then commandOperands (some Lookup.standardPath) fuel rest
      else none
    | _ => some (a :: rest, path)

mutual

def run (m : Manner) : (fuel : Nat) → Command → Run Int
  | 0, _ => act Action.stall
  | fuel + 1, c => do
    poll commandTime
    if !(← has .noexec) then
      runTraps fuel
      let checks ← perform m fuel c
      runTraps fuel
      let s ← get
      if checks && !m.tested && s.status != 0 && s.settings.contains .errexit then throw .done
    if m.last then throw .done
    return (← get).status
termination_by structural fuel => fuel

/-- Does a command by its kind and sets the status. Tells whether a failure may end the script. -/
def perform (m : Manner) : (fuel : Nat) → Command → Run Bool
  | 0, _ => act Action.stall
  | fuel + 1, c => do
    let finish := fun (status : Int) (checks : Bool) => do
      modify fun s => { s with status }
      return checks
    let inside : Manner := { tested := m.tested }
    match c with
    | .nothing => return false
    | .simple line assignments words rs => finish (← simple m fuel line assignments words rs) true
    | .pipeline cs isBackground => finish (← pipeline m isBackground fuel cs) true
    | .background line c rs => finish (← background m line fuel c rs) true
    | .subshell line c rs => finish (← subshell m line fuel c rs) true
    | .negation c =>
      let status ← run { tested := true } fuel c
      if (← get).skip.isSome then finish status false
      else finish (if status = 0 then 1 else 0) false
    | .conjunction a b =>
      let status ← run { tested := true } fuel a
      if status != 0 || (← get).skip.isSome then return false
      finish (← run m fuel b) false
    | .disjunction a b =>
      let status ← run { tested := true } fuel a
      if status = 0 || (← get).skip.isSome then return false
      finish (← run m fuel b) false
    | .sequence a b =>
      let _ ← run inside fuel a
      if (← get).skip.isSome then return false
      finish (← run m fuel b) false
    | .conditional condition thenPart elsePart =>
      let status ← run { tested := true } fuel condition
      if (← get).skip.isSome then return false
      match if status = 0 then thenPart else elsePart with
      | .nothing => finish 0 false
      | part => finish (← run m fuel part) false
    | .loop whileSucceeds condition body =>
      modify fun s => { s with loops := s.loops + 1 }
      let status ← loop m.tested whileSucceeds condition body fuel 0
      modify fun s => { s with loops := s.loops - 1 }
      finish status false
    | .iteration line name words body =>
      modify fun s => { s with line }
      let values ← words.mapM (Expansion.fields (capture fuel))
      modify fun s => { s with loops := s.loops + 1 }
      let status ← iterate m.tested name body fuel 0 values.flatten
      modify fun s => { s with loops := s.loops - 1 }
      finish status false
    | .selection line word branches =>
      modify fun s => { s with line }
      let text ← Expansion.text (capture fuel) word
      finish (← select m text fuel branches) false
    | .definition line name body =>
      modify fun s =>
        { s with functions := (name, ⟨line, body⟩) :: s.functions.filter (·.1 != name) }
      finish 0 false
    | .redirected line c rs =>
      modify fun s => { s with line }
      let targets ← Redirections.expand (capture fuel) rs
      Redirections.push
      let status ← if ← Redirections.succeed targets then run inside fuel c else pure 2
      Redirections.pop false
      finish status false
termination_by structural fuel => fuel

def loop (tested whileSucceeds : Bool) (condition body : Command) : (fuel : Nat) → Int → Run Int
  | 0, _ => act Action.stall
  | fuel + 1, status => do
    let decision ← run { tested := true } fuel condition
    match (← get).skip with
    | some (.call _) => return decision
    | some _ =>
      match ← loopStep with
      | .goesOn => loop tested whileSucceeds condition body fuel status
      | .leaves => return status
    | none =>
      if (decision = 0) != whileSucceeds then return status
      let status ← run { tested } fuel body
      match ← loopStep with
      | .goesOn => loop tested whileSucceeds condition body fuel status
      | .leaves => return status
termination_by structural fuel => fuel

def iterate (tested : Bool) (name : String) (body : Command) : (fuel : Nat) → Int →
    List String → Run Int
  | 0, _, _ => act Action.stall
  | _ + 1, status, [] => return status
  | fuel + 1, _, value :: rest => do
    assignNamed name value
    let status ← run { tested } fuel body
    match ← loopStep with
    | .goesOn => iterate tested name body fuel status rest
    | .leaves => return status
termination_by structural fuel => fuel

def select (m : Manner) (text : String) : (fuel : Nat) → List (List Word × Command) → Run Int
  | 0, _ => act Action.stall
  | _ + 1, [] => return 0
  | fuel + 1, (patterns, c) :: rest => do
    if ← fitsAny text fuel patterns then
      match c with
      | .nothing => return 0
      | c => run m fuel c
    else select m text fuel rest
termination_by structural fuel => fuel

def fitsAny (text : String) : (fuel : Nat) → List Word → Run Bool
  | 0, _ => act Action.stall
  | _ + 1, [] => return false
  | fuel + 1, w :: rest => do
    if (← Expansion.pattern (capture fuel) w).fits text then return true
    fitsAny text fuel rest
termination_by structural fuel => fuel

/-- Does a command in a copy of the shell that does nothing else. -/
def asChild (isBackground isFirst : Bool) (m : Manner) : (fuel : Nat) → Command → Run Unit → Run Nat
  | 0, _, _ => act Action.stall
  | fuel + 1, c, before =>
    ending fuel do
      forgetParent
      if isBackground then withdraw isFirst
      modify fun s => { s with jobs := [] }
      before
      let _ ← run { m with last := true } fuel c
termination_by structural fuel => fuel

def subshell (m : Manner) (line : Nat) : (fuel : Nat) → Command → List Redirection → Run Int
  | 0, _, _ => act Action.stall
  | fuel + 1, c, rs => do
    modify fun s => { s with line }
    let targets ← Redirections.expand (capture fuel) rs
    if m.last && !(← hasTraps) then
      forgetParent
      Redirections.apply false targets
      run m fuel c
    else
      let number ← Jobs.begin
      let _ ← Jobs.start number (asChild false true m fuel c (Redirections.apply false targets))
      Jobs.await number
termination_by structural fuel => fuel

def background (m : Manner) (line : Nat) : (fuel : Nat) → Command → List Redirection → Run Int
  | 0, _, _ => act Action.stall
  | fuel + 1, c, rs => do
    modify fun s => { s with line }
    let targets ← Redirections.expand (capture fuel) rs
    let number ← Jobs.begin
    let manner := { m with tested := false }
    let process ← Jobs.start number
      (asChild true true manner fuel c (Redirections.apply false targets))
    modify fun s => { s with background := some process }
    return 0
termination_by structural fuel => fuel

def pipeline (m : Manner) (isBackground : Bool) : (fuel : Nat) → List Command → Run Int
  | 0, _ => act Action.stall
  | fuel + 1, cs => do
    let number ← Jobs.begin
    members m isBackground number fuel none cs
    if isBackground then return 0
    Jobs.await number
termination_by structural fuel => fuel

/-- Starts the members of a pipeline, of which the first reads from a descriptor if one is given. -/
def members (m : Manner) (isBackground : Bool) (number : Nat) : (fuel : Nat) →
    (input : Option Nat) → List Command → Run Unit
  | 0, _, _ => act Action.stall
  | _ + 1, _, [] => return
  | fuel + 1, input, c :: rest => do
    Lookup.prepare c
    let ends ← if rest.isEmpty then pure none
      else do
        let (source, drain) ← ask .pipe
        let read ← Redirections.privateDescriptor
        let write ← Redirections.privateDescriptor
        ask (.attach read (some source))
        ask (.attach write (some drain))
        pure (some (read, write))
    let connect : Run Unit := do
      if let some (read, write) := ends then
        ask (.attach read none)
        ask (.attach 1 (← ask (.channel write)))
        ask (.attach write none)
      if let some n := input then
        ask (.attach 0 (← ask (.channel n)))
        ask (.attach n none)
    let process ← Jobs.start number (asChild isBackground input.isNone m fuel c connect)
    if isBackground then modify fun s => { s with background := some process }
    if let some n := input then ask (.attach n none)
    if let some (_, write) := ends then ask (.attach write none)
    members m isBackground number fuel (ends.map (·.1)) rest
termination_by structural fuel => fuel

/-- What commands print, without line ends behind it. -/
def capture : (fuel : Nat) → Command → Run String
  | 0, _ => act Action.stall
  | fuel + 1, c => do
    if let .nothing := c then return ""
    let (source, drain) ← ask .pipe
    let read ← Redirections.privateDescriptor
    let write ← Redirections.privateDescriptor
    ask (.attach read (some source))
    ask (.attach write (some drain))
    let number ← Jobs.begin
    let connect : Run Unit := do
      ask (.attach read none)
      ask (.attach 1 (some drain))
      ask (.attach write none)
    let _ ← Jobs.start number (asChild false true {} fuel c connect)
    ask (.attach write none)
    let text ← readAll read manyPieces []
    ask (.attach read none)
    let status ← Jobs.await number
    modify fun s => { s with outputStatus := status }
    return Text.dropFinalBreaks (String.ofList (text.toList.filter (· != '\x00')))
termination_by structural fuel => fuel

def firstFields : (fuel : Nat) → List Word → Run (List String × List Word)
  | 0, _ => act Action.stall
  | _ + 1, [] => return ([], [])
  | fuel + 1, w :: rest => do
    match ← Expansion.fields (capture fuel) w with
    | [] => firstFields fuel rest
    | fields => return (fields, rest)
termination_by structural fuel => fuel

/-- Expands words until the fields behind `command` tell what it is for. -/
def operandFields : (fuel : Nat) → (fields : List String) → List Word →
    Run (List String × List Word)
  | 0, _, _ => act Action.stall
  | fuel + 1, fields, words => do
    let isOption := fun (a : String) => a.toList.head? == some '-' && a != "-"
    if words.isEmpty || (fields.getLast?.any fun a => !isOption a) then return (fields, words)
    let (more, rest) ← firstFields fuel words
    operandFields fuel (fields ++ more) rest
termination_by structural fuel => fuel

def begin : (fuel : Nat) → (decided : Bool) → Start → Run Start
  | 0, _, _ => act Action.stall
  | fuel + 1, decided, s => do
    let name := s.fields.head?.getD ""
    match ← Lookup.own? name s.withFunctions with
    | some (.builtin kind) =>
      let s := { s with own := some (.builtin kind), takesValues := kind.takesValues }
      let s := if decided then s
        else { s with isSpecial := kind.isSpecial, isLocal := !kind.isSpecial }
      if name != "command" then return s
      let (operands, words) ← operandFields fuel (s.fields.drop 1) s.words
      let s := { s with words }
      match commandOperands s.path (operands.length + 1) operands with
      | some (fields, path) =>
        let passed := s.passed ++ name :: operands.take (operands.length - fields.length)
        begin fuel true { s with fields, passed, path, withFunctions := false }
      | none => return { s with fields := name :: operands }
    | own => return { s with own, isLocal := true }
termination_by structural fuel => fuel

def arguments (takesValues : Bool) : (fuel : Nat) → List Word → Run (List String)
  | 0, _ => act Action.stall
  | _ + 1, [] => return []
  | fuel + 1, w :: rest => do
    let fields ← match if takesValues then Word.assignment? w else none with
      | some (name, value) => do
        pure [name ++ "=" ++ (← Expansion.valueText (capture fuel) value)]
      | none => Expansion.fields (capture fuel) w
    return fields ++ (← arguments takesValues fuel rest)
termination_by structural fuel => fuel

/-- Gives variables their values, and answers how the assignments read. -/
def assignAll (isLocal exported : Bool) : (fuel : Nat) → List (String × Word) → Run (List String)
  | 0, _ => act Action.stall
  | _ + 1, [] => return []
  | fuel + 1, (name, w) :: rest => do
    let value ← Expansion.valueText (capture fuel) w
    if isLocal then localize name (some value) true else assign name value exported
    return (name ++ "=" ++ value) :: (← assignAll isLocal exported fuel rest)
termination_by structural fuel => fuel

def simple (m : Manner) : (fuel : Nat) → (line : Nat) → List (String × Word) → List Word →
    List Redirection → Run Int
  | 0, _, _, _, _ => act Action.stall
  | fuel + 1, line, assignments, words, rs => do
    modify fun s => { s with line, outputStatus := 0 }
    let (fields, words) ← firstFields fuel words
    let start ← if fields.isEmpty then pure ({ fields, words } : Start)
      else begin fuel false { fields, words }
    let fields := start.fields ++ (← arguments start.takesValues fuel start.words)
    let isExec := fields.head? == some "exec" && (match start.own with
      | some (.builtin _) => true
      | _ => false)
    let frames := (← get).locals.length
    let redirected := (← get).redirected.length
    if start.isLocal then modify fun s => { s with locals := [] :: s.locals }
    let targets ← Redirections.expand (capture fuel) rs
    if !rs.isEmpty then Redirections.push
    let status ← if ← Redirections.succeed targets then do
        let shown ← assignAll start.isLocal (isExec && fields.length > 1) fuel assignments
        if ← has .xtrace then
          trace (capture fuel) (shown ++ start.passed ++ fields) !rs.isEmpty
        invoke m fuel start fields
      else do
        modify fun s => { s with status := 2 }
        if start.isSpecial then throw .fault
        pure 2
    if !rs.isEmpty then Redirections.pop isExec
    Redirections.unwind redirected
    restoreFrames frames
    return status
termination_by structural fuel => fuel

/-- Does a command whose words have been expanded. -/
def invoke (m : Manner) : (fuel : Nat) → Start → (fields : List String) → Run Int
  | 0, _, _ => act Action.stall
  | fuel + 1, start, fields => do
    match fields, start.own with
    | [], _ =>
      modify fun s => { s with status := s.outputStatus }
      return (← get).status
    | name :: arguments, some (.builtin _) => ownCommand m start.isSpecial fuel name arguments
    | _ :: arguments, some (.function f) => callFunction m fuel f arguments
    | name :: arguments, _ =>
      match ← Lookup.meaning name start.withFunctions start.path with
      | .unknown fault =>
        warn (name ++ ": " ++ Lookup.reason fault)
        modify fun s => { s with status := 127 }
        return 127
      | _ =>
        if m.last && !(← hasTraps) then become exec start.path name arguments
        else
          let number ← Jobs.begin
          let _ ← Jobs.start number (ending fuel do
            forgetParent
            become exec start.path name arguments)
          Jobs.await number
termination_by structural fuel => fuel

/-- Does a command of the shell itself. A fault in one that is not special is only a failure. -/
def ownCommand (m : Manner) (isSpecial : Bool) : (fuel : Nat) → (name : String) → List String →
    Run Int
  | 0, _, _ => act Action.stall
  | fuel + 1, name, arguments => do
    let outer := (← get).command
    modify fun s => { s with command := some name }
    let done ← try
        let status ← builtin m fuel name arguments
        if (← get).writeFault then warn (name ++ ": I/O error")
        modify fun s =>
          { s with status := if s.writeFault && status % 2 = 0 then status + 1 else status }
        pure none
      catch stop => pure (some stop)
    modify fun s => { s with command := outer, writeFault := false }
    match done with
    | none => return (← get).status
    | some stop =>
      if stop = .fault && !isSpecial then return (← get).status
      throw stop
termination_by structural fuel => fuel

def builtin (m : Manner) : (fuel : Nat) → (name : String) → Builtin
  | 0, _, _ => act Action.stall
  | fuel + 1, name, arguments => do
    match name with
    | ":" | "true" => return 0
    | "false" => return 1
    | "eval" => evalText { tested := m.tested } fuel (" ".intercalate arguments)
    | "." => source fuel arguments
    | "exec" =>
      let (_, operands) ← Builtins.options "" arguments
      match operands with
      | name :: rest => become exec none name rest
      | [] => return 0
    | "exit" =>
      if let a :: _ := arguments then
        let status ← number a
        modify fun s => { s with keptStatus := some status }
      throw .exit
    | "return" =>
      match arguments with
      | a :: _ =>
        let status ← number a
        modify fun s => { s with skip := some (.call true) }
        return status
      | [] =>
        modify fun s => { s with skip := some (.call false) }
        return (← get).status
    | "break" | "continue" =>
      let count ← match arguments with
        | a :: _ => do
          let n ← number a
          if n ≤ 0 then fail ("Illegal number: " ++ a)
          pure n.toNat
        | [] => pure 1
      let count := min count (← get).loops
      if count > 0 then
        modify fun s => { s with skip := some (.loops count (name == "continue")) }
      return 0
    | "command" =>
      let (options, operands) ← Builtins.options "pvV" arguments
      let path := if options.any (·.1 == 'p') then some Lookup.standardPath else none
      let asked := options.filter (·.1 != 'p')
      match operands, asked with
      | name :: _, _ :: _ => Lookup.describe (asked.any (·.1 == 'V')) path name
      | _, _ => return 0
    | "times" =>
      print "0m0.000000s 0m0.000000s\n0m0.000000s 0m0.000000s\n"
      return 0
    | "ulimit" => Builtins.ulimit arguments
    | "export" => Builtins.export_ arguments
    | "readonly" => Builtins.readonly arguments
    | "local" => Builtins.localVariables arguments
    | "set" => Builtins.set_ arguments
    | "shift" => Builtins.shift arguments
    | "unset" => Builtins.unset_ arguments
    | "trap" => Builtins.trap arguments
    | "[" => Builtins.bracket arguments
    | "test" => Builtins.test arguments
    | "alias" => Builtins.aliases arguments
    | "unalias" => Builtins.unalias arguments
    | "bg" | "fg" => Builtins.moveJob arguments
    | "cd" | "chdir" => Builtins.cd arguments
    | "pwd" => Builtins.pwd arguments
    | "umask" => Builtins.umask arguments
    | "echo" => Builtins.echo arguments
    | "printf" => Builtins.printf arguments
    | "getopts" => Builtins.getopts arguments
    | "read" => Builtins.read_ arguments
    | "hash" => Lookup.hash arguments
    | "type" => Lookup.type arguments
    | "jobs" => Builtins.jobs arguments
    | "kill" => Builtins.kill arguments
    | "wait" => Builtins.wait arguments
    | _ => return 0
termination_by structural fuel => fuel

def callFunction (m : Manner) : (fuel : Nat) → Function → List String → Run Int
  | 0, _, _ => act Action.stall
  | fuel + 1, f, positional => do
    let before ← get
    if before.depth ≥ deepest then
      fail s!"Maximum function recursion depth ({deepest}) reached"
    modify fun s =>
      { s with
        positional, optionIndex := 1, optionOffset := none, loops := 0, depth := s.depth + 1 }
    let done ← try
        let _ ← run { tested := m.tested } fuel f.body
        pure none
      catch stop => pure (some stop)
    modify fun s =>
      { s with
        positional := before.positional
        optionIndex := before.optionIndex
        optionOffset := before.optionOffset
        loops := before.loops
        depth := before.depth
        skip := match s.skip with
          | some (.call _) => none
          | skip => skip }
    match done with
    | none => return (← get).status
    | some stop => throw stop
termination_by structural fuel => fuel

def lines (m : Manner) : (fuel : Nat) → Reader → (status : Int) → Run Int
  | 0, _, _ => act Action.stall
  | fuel + 1, r, status => do
    match ({ r with aliases := (← get).aliases } : Reader).next with
    | .error ⟨line, fault⟩ =>
      modify fun s => { s with line }
      fail ("Syntax error: " ++ fault.message)
    | .ok none => return status
    | .ok (some (c, r)) =>
      let done ← run m fuel c
      let status := match c with
        | .nothing => status
        | _ => done
      if (← get).skip.isSome then return status
      lines m fuel r status
termination_by structural fuel => fuel

def evalText (m : Manner) : (fuel : Nat) → String → Run Int
  | 0, _ => act Action.stall
  | fuel + 1, text => lines m fuel { rest := text.toList } 0
termination_by structural fuel => fuel

def source : (fuel : Nat) → Builtin
  | 0, _ => act Action.stall
  | fuel + 1, arguments => do
    let (_, operands) ← Builtins.options "" arguments
    let name :: _ := operands | return 0
    let path ← if name.toList.contains '/' then pure name
      else
        let files ← files
        let paths := (← Lookup.directories).map (pathIn · name)
        match paths.find? fun p => files.isFile (Text.decode p) with
        | some path => pure path
        | none => fail (name ++ ": not found")
    let channel ← Redirections.open? path .read "open" "No such file"
    let n ← Redirections.privateDescriptor
    ask (.attach n (some channel))
    let text ← readAll n manyPieces []
    ask (.attach n none)
    modify fun s => { s with command := some path }
    let status ← lines {} fuel { rest := text.toList } 0
    modify fun s => { s with skip := match s.skip with
      | some (.call _) => none
      | skip => skip }
    return status
termination_by structural fuel => fuel

def runTraps : (fuel : Nat) → Run Unit
  | 0 => act Action.stall
  | fuel + 1 => do
    poll 0
    if !(← get).pending.isEmpty then
      let outer := (← get).keptStatus
      let status := outer.getD (← get).status
      modify fun s => { s with keptStatus := some status }
      trapsFrom fuel status
      modify fun s => { s with keptStatus := outer }
termination_by structural fuel => fuel

def trapsFrom : (fuel : Nat) → (status : Int) → Run Unit
  | 0, _ => act Action.stall
  | fuel + 1, status => do
    let s ← get
    match s.pending.min? with
    | none => return
    | some number =>
      if s.skip.isSome then return
      modify fun s => { s with pending := s.pending.filter (· != number) }
      if let some action := s.traps.lookup number then
        let _ ← evalText {} fuel action
        if (← get).skip != some (.call true) then modify fun s => { s with status }
      trapsFrom fuel status
termination_by structural fuel => fuel

/-- Does work and ends the shell, with what is to be done at the end. The answer is its status. -/
def ending : (fuel : Nat) → Run Unit → Run Nat
  | 0, _ => act Action.stall
  | fuel + 1, work => do
    let stop ← try
        work
        pure none
      catch stop => pure (some stop)
    windUp stop
    modify fun s => { s with keptStatus := some s.status }
    let stop ← match (← get).traps.lookup 0 with
      | some action =>
        modify fun s => { s with traps := s.traps.filter (·.1 != 0), skip := none }
        try
          let _ ← evalText {} fuel action
          modify fun s => { s with skip := some (.call false) }
          pure none
        catch stop => pure (some stop)
      | none => pure stop
    windUp stop
    return ((← get).status % 256).toNat
termination_by structural fuel => fuel

end

end ImageLinker.Shell.Execution
