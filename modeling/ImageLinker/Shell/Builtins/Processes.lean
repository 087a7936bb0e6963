import ImageLinker.Shell.Builtins.Basic
import ImageLinker.Shell.Jobs

/-! Commands for signals, jobs and what is done when a signal comes. -/
namespace ImageLinker.Shell.Builtins

open Unix Run

def signal? (least : Nat) (text : String) : Option Nat :=
  match number? text with
  | some n => if 0 ≤ n && n ≤ (Signal.last : Int) then some n.toNat else none
  | none =>
    let upper := text.toUpper
    ((List.range (Signal.last + 1)).drop least).find? fun n => Signal.label n == upper

/-- Sets what a signal does, unless the shell was started to ignore it. -/
def handle (number : Nat) : Run Unit := do
  let s ← get
  if s.alwaysIgnored.contains number then return
  let how : Disposition := match s.traps.lookup number with
    | none => .byDefault
    | some "" => .ignored
    | some _ => .caught
  let before ← ask (.dispose number how)
  if before = .ignored && !s.handled.contains number then
    let _ ← ask (.dispose number .ignored)
    modify fun s => { s with alwaysIgnored := number :: s.alwaysIgnored }
  modify fun s => { s with handled := number :: s.handled }

def setTrap (number : Nat) (action : Option String) : Run Unit := do
  modify fun s =>
    let others := s.traps.filter (·.1 != number)
    { s with traps := (action.map (number, ·)).toList ++ others }
  if number != 0 then handle number

def setTraps (action : Option String) : List String → Run Int
  | [] => return 0
  | name :: rest => do
    match signal? 0 name with
    | some number =>
      setTrap number action
      setTraps action rest
    | none =>
      complain s!"trap: {name}: bad trap\n"
      return 1

def trap : Builtin := fun arguments => do
  let (_, operands) ← options "" arguments
  match operands with
  | [] =>
    let sorted := (← get).traps.mergeSort fun a b => a.1 ≤ b.1
    sorted.forM fun (number, action) => print s!"trap -- {quote action} {Signal.label number}\n"
    return 0
  | [name] => setTraps none [name]
  | first :: rest =>
    if (number? first).any fun n => 0 ≤ n && n ≤ (Signal.last : Int) then
      setTraps none (first :: rest)
    else setTraps (if first = "-" then none else some first) rest

def jobOf (name : String) : Run Job := do
  let jobs := (← get).jobs
  let missing := "No such job: " ++ name
  let found (job : Option Job) (message : String) : Run Job := do
    match job with
    | some j => return j
    | none => fail message
  match name.toList with
  | '%' :: cs =>
    if cs.isEmpty || cs == ['+'] || cs == ['%'] then found jobs.head? "No current job"
    else if cs == ['-'] then found jobs[1]? "No previous job"
    else
      match Text.decimal? cs with
      | some n => found (jobs.find? (·.number == n)) missing
      | none => fail missing
  | _ => fail missing

/-- Waits until one of the shell's children has ended, or a signal has come that something is done
for. Tells which. -/
def waitOnce (number : Option Nat) : Run Bool := do
  match ← ask (.wait .alert) with
  | .ended process ending =>
    Jobs.take number process ending
    return true
  | .noChild => return true
  | .notYet => return false

/-- Waits until a condition on the jobs holds. The answer is the status that a signal gives. -/
def waitUntil (number : Option Nat) (isDone : State → Bool) : (fuel : Nat) → Run (Option Int)
  | 0 => return none
  | fuel + 1 => do
    if isDone (← get) then return none
    if ← waitOnce number then waitUntil number isDone fuel
    else
      let arrived ← ask (.work 0)
      modify fun s => { s with pending := s.pending ++ arrived }
      return some (128 + (arrived.getLast?.getD 0 : Nat))

def waitFor (text : String) : Run (Except Int Int) := do
  let job ← if text.startsWith "%" then pure (some (← jobOf text))
    else do
      let process ← number text
      pure ((← get).jobs.find? fun j => process = j.process)
  match job with
  | none => return .ok 127
  | some job =>
    let isDone := fun (s : State) => (s.jobs.find? (·.number == job.number)).all (·.isDone)
    match ← waitUntil (some job.number) isDone Jobs.manyChildren with
    | some status => return .error status
    | none =>
      Jobs.change job.number fun j => { j with waited := true }
      return .ok (((← Jobs.find? job.number).map (·.status)).getD 0)

def waitAll : (status : Int) → List String → Run Int
  | status, [] => return status
  | _, text :: rest => do
    match ← waitFor text with
    | .ok status => waitAll status rest
    | .error status => return status

def wait : Builtin := fun arguments => do
  let (_, operands) ← options "" arguments
  if !operands.isEmpty then waitAll 127 operands
  else
    let isDone := fun (s : State) => s.jobs.all (·.isDone)
    match ← waitUntil none isDone Jobs.manyChildren with
    | some status => return status
    | none =>
      modify fun s => { s with jobs := s.jobs.map fun j => { j with waited := true } }
      return 0

def jobLine (jobs : List Job) (withProcess : Bool) (j : Job) : String :=
  let sign := if jobs.head?.any (·.number == j.number) then "+"
    else if jobs[1]?.any (·.number == j.number) then "-" else " "
  let state := if j.isDone then ((j.members.getLast?.bind (·.2)).map Job.endingText).getD ""
    else "Running"
  let first := (j.members.head?.map (·.1)).getD 0
  let text := s!"[{j.number}] {sign} " ++ (if withProcess then s!"{first} " else "") ++ state
  text ++ String.ofList (List.replicate (33 - text.length) ' ') ++ "\n"

def showJob (options : List (Char × String)) (j : Job) : Run Unit := do
  match options.getLast? with
  | some ('p', _) => print s!"{(j.members.head?.map (·.1)).getD 0}\n"
  | _ =>
    print (jobLine (← get).jobs (!options.isEmpty) j)
    if j.isDone then Jobs.forget j.number

def jobs : Builtin := fun arguments => do
  let (options, names) ← options "lp" arguments
  Jobs.takeEnded Jobs.manyChildren
  if names.isEmpty then (← get).jobs.forM (showJob options)
  else names.forM fun name => do showJob options (← jobOf name)
  return 0

/-- Jobs cannot be moved between foreground and background. -/
def moveJob : Builtin := fun arguments => do
  let (_, names) ← options "" arguments
  match names.head? with
  | some name => do
    let _ ← jobOf name
    fail s!"job {name} not created under job control"
  | none =>
    match (← get).jobs with
    | [] => fail "No current job"
    | _ => fail "job (null) not created under job control"

def killUsage : String :=
  "Usage: kill [-s sigspec | -signum | -sigspec] [pid | job]... or\nkill -l [exitstatus]"

def listSignals (operands : List String) : Run Int := do
  match operands with
  | [] =>
    print "0\n"
    ((List.range (Signal.last + 1)).drop 1).forM fun n => print (Signal.label n ++ "\n")
    return 0
  | text :: _ =>
    let n ← number text
    let n := if n > 128 then n - 128 else n
    if 0 < n && n ≤ (Signal.last : Int) then print (Signal.label n.toNat ++ "\n")
    else fail ("invalid signal number or exit status: " ++ text)
    return 0

/-- The process, or the group of processes if negative, that a text names. -/
def signalTarget (text : String) : Run Int := do
  match text.toList with
  | '%' :: _ => return -((((← jobOf text).members.head?.map (·.1)).getD 0 : Nat) : Int)
  | '-' :: cs => return -(← number (String.ofList cs))
  | _ => number text

def sendSignals (signal : Nat) (targets : List String) : Run Int := do
  let oks ← targets.mapM fun text => do
    match ← ask (.signal (← signalTarget text) signal) with
    | .ok _ => return true
    | .error fault =>
      warn (fault.reason ++ "\n")
      return false
  return if oks.all id then 0 else 1

def kill : Builtin := fun arguments => do
  match arguments with
  | [] => fail killUsage
  | first :: rest =>
    let ofFirst := match first.toList with
      | '-' :: cs => signal? 1 (String.ofList cs)
      | _ => none
    match ofFirst, first.startsWith "-" with
    | some signal, _ => if rest.isEmpty then fail killUsage else sendSignals signal rest
    | none, false => sendSignals Signal.terminate arguments
    | none, true =>
      let (options, operands) ← options "ls:" arguments
      let mut signal := none
      for (letter, text) in options do
        if letter = 's' then
          match signal? 1 text with
          | some n => signal := some n
          | none => fail ("invalid signal number or name: " ++ text)
      let lists := options.any (·.1 == 'l')
      if lists && signal.isSome || !lists && operands.isEmpty then fail killUsage
      if lists then listSignals operands
      else sendSignals (signal.getD Signal.terminate) operands

end ImageLinker.Shell.Builtins
