import ImageLinker.Invocation

/-!
Processes as what they ask the system for. A process is a tree: at each node it asks for something,
and every answer leads to one more tree. What answers, and when, is left open here.
-/
namespace ImageLinker.Unix

inductive OpenMode where
  | read
  | write
  | append
  | readWrite
  | create
  deriving DecidableEq, Repr, Inhabited

inductive Disposition where
  | byDefault
  | ignored
  | caught
  deriving DecidableEq, Repr, Inhabited

/-- How long a process waits for the end of a child. -/
inductive Patience where
  /-- Until a child has ended, whatever else comes. -/
  | steady
  /-- Until a child has ended or a signal has been caught. -/
  | alert
  | none
  deriving DecidableEq, Repr, Inhabited

inductive Waited where
  | ended (child : Nat) (ending : Ending)
  | noChild
  | notYet
  deriving DecidableEq, Repr, Inhabited

structure Position where
  place : Files.Place
  offset : Nat
  size : Nat
  deriving DecidableEq, Repr, Inhabited

structure Identity where
  self : Nat
  parent : Nat
  deriving DecidableEq, Repr, Inhabited

inductive Request where
  /-- Works for so many nanoseconds; the answer is the signals that were caught since it was last
  asked. -/
  | work (nanoseconds : Nat)
  | stall
  | files (change : Files.Tree → Files.Tree)
  | openFile (path : String) (mode : OpenMode)
  | pipe
  | channel (descriptor : Nat)
  | attach (descriptor : Nat) (channel : Option Nat)
  /-- Reads at most so many bytes, and none behind the first end mark if one is given. Nothing is
  read only where nothing is left. -/
  | read (descriptor limit : Nat) (endMark : Option Char)
  | write (descriptor : Nat) (text : String)
  | position (descriptor : Nat)
  /-- Goes back by so many bytes in a file that was read. -/
  | unread (descriptor count : Nat)
  | wait (patience : Patience)
  | sleep (nanoseconds : Nat)
  | signal (target : Int) (number : Nat)
  | dispose (number : Nat) (how : Disposition)
  | identity
  | mask (new : Option Nat)
  /-- Gets ready for another program: what it must not inherit is given up. -/
  | renew

abbrev Request.Answer : Request → Type
  | .work _ => List Nat
  | .stall => Unit
  | .files _ => Files.Tree
  | .openFile .. => Except Files.Fault Nat
  | .pipe => Nat × Nat
  | .channel _ => Option Nat
  | .attach .. => Unit
  | .read .. => Except Files.Fault String
  | .write .. => Except Files.Fault Unit
  | .position _ => Option Position
  | .unread .. => Unit
  | .wait _ => Waited
  | .sleep _ => Unit
  | .signal .. => Except Files.Fault Unit
  | .dispose .. => Disposition
  | .identity => Identity
  | .mask _ => Nat
  | .renew => Unit

inductive Process where
  | ended (ending : Ending)
  | asking (request : Request) (next : request.Answer → Process)
  | forking (child : Process) (next : Nat → Process)

instance : Inhabited Process := ⟨.ended (.exited 0)⟩

def Action (α : Type) : Type := (α → Process) → Process

namespace Action

instance : Monad Action where
  pure a := fun next => next a
  bind act f := fun next => act fun a => f a next

instance [Inhabited α] : Inhabited (Action α) := ⟨pure default⟩

def ask (request : Request) : Action request.Answer := Process.asking request

def fork (child : Process) : Action Nat := Process.forking child

/-- Ends the process; nothing comes after it. -/
def finish (ending : Ending) : Action α := fun _ => .ended ending

def exit (status : Nat) : Action α := finish (.exited (status % 256))

def stall : Action α := fun _ => .asking .stall fun _ => .ended (.exited 0)

def toProcess (act : Action Nat) : Process := act fun status => .ended (.exited (status % 256))

def files : Action Files.Tree := ask (.files id)

def changeFiles (change : Files.Tree → Except Files.Fault Files.Tree) :
    Action (Except Files.Fault Unit) := do
  match change (← files) with
  | .ok after =>
    let _ ← ask (.files fun _ => after)
    return .ok ()
  | .error fault => return .error fault

def openOn (descriptor : Nat) (path : String) (mode : OpenMode) :
    Action (Except Files.Fault Unit) := do
  match ← ask (.openFile path mode) with
  | .ok channel =>
    ask (.attach descriptor (some channel))
    return .ok ()
  | .error fault => return .error fault

/-- As much as is read from a file or a pipe at once. -/
def blockSize : Nat := 65536

def readBlock (descriptor : Nat) : Action (Except Files.Fault String) :=
  ask (.read descriptor blockSize none)

end Action

end ImageLinker.Unix
