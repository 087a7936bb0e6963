import ImageLinker.Shell.Expansion
import ImageLinker.Shell.Jobs
import ImageLinker.Unix.Channel

/-! Leading descriptors elsewhere for a command, and back again. -/
namespace ImageLinker.Shell.Redirections

open Unix Run

/-- A redirection whose word has been expanded. -/
inductive Target where
  | file (path : String) (kind : RedirectionKind)
  | descriptor (other : Option Nat)
  | text (content : String)
  deriving DecidableEq, Repr, Inhabited

def expand (capture : Command → Run String) (rs : List Redirection) : Run (List (Nat × Target)) :=
  rs.mapM fun
    | .mk n .hereText w => return (n, .text (← Expansion.documentText capture w))
    | .mk n .duplicate w => do
      match (← Expansion.text capture w).toList with
      | ['-'] => return (n, .descriptor none)
      | [c] =>
        if c.isDigit then return (n, .descriptor (some (c.toNat - 48)))
        fail "Syntax error: Bad fd number"
      | _ => fail "Syntax error: Bad fd number"
    | .mk n kind w => return (n, .file (← Expansion.text capture w) kind)

def reason (missing : String) : Files.Fault → String
  | .notFound | .notADirectory => missing
  | fault => fault.reason

def open? (path : String) (mode : OpenMode) (verb missing : String) : Run Nat := do
  match ← ask (.openFile path mode) with
  | .ok channel => return channel
  | .error fault => fail s!"cannot {verb} {path}: {reason missing fault}"

def openForWriting (path : String) : Run Nat := do
  let isFile := (← files).isFile (Text.decode path)
  let isDevice := path.startsWith "/dev/"
  if (← has .noclobber) && isFile && !isDevice then
    fail s!"cannot create {path}: {Files.Fault.alreadyExists.reason}"
  open? path .write "create" "Directory nonexistent"

def privateDescriptor : Run Nat := do
  let n := (← get).nextPrivate
  modify fun s => { s with nextPrivate := n + 1 }
  return n

/-- Writes a text to the end of a pipe. If the pipe cannot hold it, a child writes it. -/
def fill (drain : Nat) (content : String) : Run Unit := do
  let n ← privateDescriptor
  ask (.attach n (some drain))
  if content.length ≤ Pipe.capacity then
    let _ ← ask (.write n content)
  else
    let number ← Jobs.begin
    let _ ← Jobs.start number do
      let _ ← ask (.write n content)
      return 0
    Jobs.change number fun j => { j with waited := true }
  ask (.attach n none)

/-- The channel that a target leads to, unless it is a text; none closes the descriptor. -/
def channelOf : Target → Run (Option Nat)
  | .file path .read => return some (← open? path .read "open" "No such file")
  | .file path .readWrite => return some (← open? path .readWrite "create" "Directory nonexistent")
  | .file path .write => return some (← openForWriting path)
  | .file path .append => return some (← open? path .append "create" "Directory nonexistent")
  | .file path _ => return some (← open? path .write "create" "Directory nonexistent")
  | .descriptor none => return none
  | .descriptor (some other) => do
    match ← ask (.channel other) with
    | some channel => return some channel
    | none => fail s!"{other}: {Files.Fault.badDescriptor.reason}"
  | .text _ => return none

/-- Keeps where a descriptor leads, once for all redirections of a command. -/
def keep (n : Nat) : Run Unit := do
  match (← get).redirected with
  | frame :: rest =>
    if !frame.any (·.1 == n) then
      let kept ← match ← ask (.channel n) with
        | some channel => do
          let p ← privateDescriptor
          ask (.attach p (some channel))
          pure (some p)
        | none => pure none
      modify fun s => { s with redirected := ((n, kept) :: frame) :: rest }
  | [] => return

def apply (undone : Bool) (targets : List (Nat × Target)) : Run Unit :=
  targets.forM fun (n, target) => do
    match target with
    | .text content =>
      let (source, drain) ← ask .pipe
      if undone then keep n
      ask (.attach n (some source))
      fill drain content
    | target =>
      let channel ← channelOf target
      if undone then keep n
      ask (.attach n channel)

def push : Run Unit := modify fun s => { s with redirected := [] :: s.redirected }

def pop (leave : Bool) : Run Unit := do
  match (← get).redirected with
  | frame :: rest =>
    frame.forM fun (n, kept) => do
      match kept with
      | some p =>
        if !leave then ask (.attach n (← ask (.channel p)))
        ask (.attach p none)
      | none => if !leave then ask (.attach n none)
    modify fun s => { s with redirected := rest }
  | [] => return

def unwind (left : Nat) : Run Unit := do
  let count := (← get).redirected.length - left
  (List.replicate count ()).forM fun _ => pop false

/-- Redirects, and answers whether that succeeded. What failed was told of. -/
def succeed (targets : List (Nat × Target)) : Run Bool := do
  try
    apply true targets
    return true
  catch stop =>
    if stop = .fault then return false
    throw stop

def errorsBefore : Run Nat := do
  match (← get).redirected with
  | frame :: _ => return ((frame.lookup 2).join).getD 2
  | [] => return 2

end ImageLinker.Shell.Redirections
