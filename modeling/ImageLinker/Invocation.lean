import ImageLinker.Error
import ImageLinker.Files.Tree
import ImageLinker.Unix.Signal

/-! Runs of external programs with a limit of time, and what a failed run is reported as. -/
namespace ImageLinker

abbrev Variables := List (String × String)

structure Invocation where
  program : String
  arguments : List String
  limit : Duration
  deriving DecidableEq, Repr, Inhabited

inductive Ending where
  | exited (code : Nat)
  | signalled (number : Nat)
  deriving DecidableEq, Repr, Inhabited

inductive RunResult where
  | notStarted (fault : Files.Fault)
  | overdue
  | ended (ending : Ending) (output errors : List UInt8)
  deriving DecidableEq, Repr, Inhabited

/-- What runs programs. A program may read and change files. -/
structure Host where
  run : Invocation → StateM Files.Tree RunResult

namespace Ending

def signalName (number : Nat) : String :=
  ((Unix.Signal.name? number).map ("SIG" ++ ·)).getD ""

def fault? : Ending → Option InvocationFault
  | .exited 0 => none
  | .exited code => some (.exited code)
  | .signalled number => some (.signalled number (signalName number))

end Ending

namespace RunResult

/-- The text that a successful run printed. Both streams have to be text, whatever the ending. -/
def text (i : Invocation) : RunResult → Except LinkError String
  | .notStarted fault => .error (.compilerInvocation i.program (.notStarted fault))
  | .overdue => .error (.compilerTimeout i.program i.limit)
  | .ended ending output errors =>
    let read : Except InvocationFault String := do
      let text ← (Files.Tree.textOfBytes output).mapError InvocationFault.unreadableOutput
      let _ ← (Files.Tree.textOfBytes errors).mapError InvocationFault.unreadableOutput
      match ending.fault? with
      | some fault => throw fault
      | none => return text
    read.mapError (.compilerInvocation i.program)

end RunResult

def Host.print (host : Host) (i : Invocation) : StateM Files.Tree (Except LinkError String) := do
  return (← host.run i).text i

end ImageLinker
