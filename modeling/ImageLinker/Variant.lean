/-! The two kinds of target that an image is made for. -/
namespace ImageLinker

inductive Variant where
  | push0
  | legacy
  deriving DecidableEq, Repr, Inhabited

/-- The names by which a compiler knows the two kinds of target. -/
structure EvmVersions where
  push0 : String := "shanghai"
  legacy : String := "london"
  deriving DecidableEq, Repr, Inhabited

namespace Variant

def version (versions : EvmVersions) : Variant → String
  | .push0 => versions.push0
  | .legacy => versions.legacy

def text : Variant → String
  | .push0 => "with PUSH0"
  | .legacy => "without PUSH0"

end Variant

end ImageLinker
