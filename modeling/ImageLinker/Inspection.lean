import ImageLinker.Compiler
import ImageLinker.Initcode

/-! What a compiler makes of one file for both kinds of target. -/
namespace ImageLinker

/-- The bytes of one file for both kinds of target: initcode and the code that it deploys. -/
structure Inspection where
  variant : Variant
  initcode : List UInt8
  runtime : List UInt8
  deriving DecidableEq, Repr, Inhabited

/-- Compiles a file as it is for both kinds of target. -/
def inspect (compiler : Compiler) (path : String) (versions : EvmVersions) :
    Job (List Inspection) :=
  [Variant.push0, .legacy].mapM fun variant => do
    let initcode ← compiler.compileToBytes path (variant.version versions)
    return ⟨variant, initcode, (Initcode.deployedCode initcode).getD []⟩

end ImageLinker
