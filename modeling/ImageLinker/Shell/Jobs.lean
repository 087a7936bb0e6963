import ImageLinker.Shell.State

/-! Processes that a shell starts: how they are counted as jobs, and what is known of their ends. -/
namespace ImageLinker.Shell

open Unix

namespace Job

def isDone (j : Job) : Bool := j.members.all (·.2.isSome)

def holds (j : Job) (process : Nat) : Bool := j.members.any (·.1 == process)

def process (j : Job) : Nat := (j.members.getLast?.map (·.1)).getD 0

def statusOf : Ending → Int
  | .exited code => code
  | .signalled number => 128 + number

def status (j : Job) : Int := ((j.members.getLast?.bind (·.2)).map statusOf).getD 0

def endingText : Ending → String
  | .exited 0 => "Done"
  | .exited code => s!"Done({code})"
  | .signalled number => Signal.description number

end Job

namespace Jobs

open Run

def silentSignals : List Nat := [Signal.interrupt, Signal.pipe]

/-- The number for a new job: the first that is free, or whose job nobody asks for any more. -/
def freeNumber (jobs : List Job) : Nat :=
  let isTaken := fun (n : Nat) => jobs.any fun j => j.number = n && !(j.isDone && j.waited)
  ((List.range (jobs.length + 1)).find? fun n => !isTaken (n + 1)).getD jobs.length + 1

def begin : Run Nat := do
  let n := freeNumber (← get).jobs
  modify fun s => { s with jobs := ⟨n, [], false⟩ :: s.jobs.filter (·.number != n) }
  return n

def find? (number : Nat) : Run (Option Job) :=
  return (← get).jobs.find? (·.number == number)

def change (number : Nat) (f : Job → Job) : Run Unit := modify fun s =>
  { s with jobs := s.jobs.map fun j => if j.number = number then f j else j }

def add (number process : Nat) : Run Unit :=
  change number fun j => { j with members := j.members ++ [(process, none)] }

def forget (number : Nat) : Run Unit := modify fun s =>
  { s with jobs := s.jobs.filter (·.number != number) }

def note (process : Nat) (ending : Ending) : Run Unit := modify fun s =>
  let noted := fun (j : Job) =>
    { j with
      members := j.members.map fun (p, e) => if p = process then (p, some ending) else (p, e) }
  { s with jobs := s.jobs.map noted }

/-- Takes in the end of a child, and tells of one of the given job that a signal ended. -/
def take (number : Option Nat) (process : Nat) (ending : Ending) : Run Unit := do
  let jobs := (← get).jobs
  note process ending
  let isWanted := jobs.any fun j => some j.number == number && j.holds process
  match ending with
  | .signalled n =>
    if isWanted && !silentSignals.contains n then complain (Signal.description n ++ "\n")
  | .exited _ => return

/-- Waits for children until a job is done. -/
def awaitFrom (number : Nat) : (fuel : Nat) → Run Unit
  | 0 => return
  | fuel + 1 => do
    match ← find? number with
    | none => return
    | some j =>
      if j.isDone then return
      match ← ask (.wait .steady) with
      | .ended process ending =>
        take (some number) process ending
        awaitFrom number fuel
      | _ => return

def manyChildren : Nat := 1000000000

/-- Waits for a job and forgets it. The answer is its status. -/
def await (number : Nat) : Run Int := do
  awaitFrom number manyChildren
  let status := ((← find? number).map (·.status)).getD 0
  forget number
  return status

def takeEnded : (fuel : Nat) → Run Unit
  | 0 => return
  | fuel + 1 => do
    match ← ask (.wait .none) with
    | .ended process ending =>
      take none process ending
      takeEnded fuel
    | _ => return

def start (number : Nat) (child : Run Nat) : Run Nat := do
  let process ← fun s next =>
    let ofResult : Except Stop Nat × State → Process := fun
      | (.ok status, _) => .ended (.exited status)
      | (.error _, _) => .ended (.exited 2)
    Action.fork (child s ofResult) fun process => next (.ok process, s)
  add number process
  return process

end Jobs

end ImageLinker.Shell
