import ImageLinker.Shell.Program
import ImageLinker.Tools.Copying
import ImageLinker.Tools.Files
import ImageLinker.Tools.Grep
import ImageLinker.Tools.Launching
import ImageLinker.Tools.Lines
import ImageLinker.Tools.Printing
import ImageLinker.Tools.Sed
import ImageLinker.Tools.Tr
import ImageLinker.Tools.Values
import ImageLinker.Unix.Loading

/-!
A host for commands that bring their files with them: a shell, tools and scripts among the files.
Building and inspecting take any host; this one is chosen where the program starts.
-/
namespace ImageLinker.Host

open Unix

def programs : List (String × Program) :=
  [("sh", Shell.program), ("dash", Shell.program), ("echo", Tools.echo), ("printf", Tools.printf),
    ("yes", Tools.yes), ("cat", Tools.cat), ("tee", Tools.tee), ("head", Tools.head),
    ("tail", Tools.tail), ("tac", Tools.tac), ("sed", Tools.Sed.program),
    ("grep", Tools.Grep.program .basic), ("egrep", Tools.Grep.namedProgram .extended),
    ("fgrep", Tools.Grep.namedProgram .fixed), ("tr", Tools.Tr.program), ("wc", Tools.wc),
    ("cut", Tools.cut), ("rev", Tools.rev), ("sort", Tools.sort), ("uniq", Tools.uniq),
    ("mkdir", Tools.mkdir), ("rmdir", Tools.rmdir), ("pwd", Tools.pwd), ("ls", Tools.ls),
    ("touch", Tools.touch), ("rm", Tools.rm), ("chmod", Tools.chmod), ("cp", Tools.cp),
    ("mv", Tools.mv), ("sleep", Tools.sleep), ("env", Tools.env), ("printenv", Tools.printenv),
    ("timeout", Tools.timeout), ("test", Tools.test), ("[", Tools.bracket), ("expr", Tools.expr),
    ("seq", Tools.seq), ("basename", Tools.basename), ("dirname", Tools.dirname),
    ("true", fun _ _ => return 0), ("false", fun _ _ => return 1)]

def install (files : Files.Tree) : Files.Tree := Loading.install (programs.map (·.1)) files

def lookInterval : Nat := 10000000

def deadline (limit : Duration) : Nat :=
  (limit.nanoseconds + lookInterval - 1) / lookInterval * lookInterval

def manyRounds : Nat := 1000000000

def written (k : Kernel) (output : Nat) : List UInt8 :=
  Text.toBytes (String.join (k.outputs[output]?.getD []).reverse)

/-- Runs a process until it has ended and nobody writes to its outputs any more, or until its time
is over. -/
def runProcess (files : Files.Tree) (limit : Duration) (p : Process) : RunResult × Files.Tree :=
  let first : Task :=
    { identity := ⟨Kernel.firstId, Kernel.firstId - 1⟩
      process := p
      descriptors := [(0, 0), (1, 1), (2, 2)]
      directory := files.workingDirectory }
  let start : Kernel :=
    { files
      channels := #[.nothing, .output 0, .output 1]
      outputs := #[[], []]
      tasks := [first]
      nextId := Kernel.firstId + 1 }
  let k := start.run (deadline limit) manyRounds
  let files := { k.files with workingDirectory := files.workingDirectory }
  match k.result with
  | none => (.overdue, files)
  | some (ending, time) =>
    if deadline limit ≤ time then (.overdue, files)
    else (.ended ending (written k 0) (written k 1), files)

def start (vars : Variables) (files : Files.Tree) (i : Invocation) :
    Except Files.Fault Process := do
  if (i.program :: i.arguments).any fun a => a.toList.contains '\x00' then throw .nulByte
  let environment := vars.map fun (name, value) => (name, Text.encode value)
  let (name, call) ← Loading.search files
    ⟨Text.encode i.program, i.arguments.map Text.encode, environment⟩
  match programs.lookup name with
  | some p => return (p (Loading.exec programs Loading.manyPrograms) call).toProcess
  | none => throw .badProgram

/-- The host of the files' own programs. Without any time nothing is done. -/
def ofVariables (vars : Variables) : Host where
  run i files :=
    match start vars files i with
    | .error fault => (.notStarted fault, files)
    | .ok p => if i.limit.nanoseconds = 0 then (.overdue, files) else runProcess files i.limit p

end ImageLinker.Host
