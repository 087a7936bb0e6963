import ImageLinker.Compiler
import ImageLinker.Invocation

/-! The compiler `solc` in its mode for assembly sources. -/
namespace ImageLinker.Solc

def arguments (optimizeRuns : Nat) (path version : String) : List String :=
  [path, "--bin", s!"--optimize-runs={optimizeRuns}", "--evm-version=" ++ version,
    "--strict-assembly"]

def compiler (host : Host) (program : String) (optimizeRuns : Nat) (limit : Duration) :
    Compiler where
  name := program
  compile path version := host.print ⟨program, arguments optimizeRuns path version, limit⟩

end ImageLinker.Solc
