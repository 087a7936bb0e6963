import ImageLinker.Image

/-! What a build produces, and the files that hold it. -/
namespace ImageLinker

inductive Mode where
  | single
  | dual
  deriving DecidableEq, Repr, Inhabited

structure Artifacts where
  mode : Mode
  images : List Image
  initcode : List UInt8
  differing : List Nat := []
  initcodeHash : Option String := none
  deriving DecidableEq, Repr, Inhabited

namespace Artifacts

def runtimeFileName : Mode → Variant → String
  | .single, _ => "runtime.txt"
  | .dual, .push0 => "runtime_with_push0.txt"
  | .dual, .legacy => "runtime_without_push0.txt"

def files (a : Artifacts) : List (String × String) :=
  a.images.map (fun image => (runtimeFileName a.mode image.variant, Hex.encode image.bytes)) ++
    [("initcode.txt", Hex.encode a.initcode)]

end Artifacts

end ImageLinker
