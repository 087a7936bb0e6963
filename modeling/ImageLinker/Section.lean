import ImageLinker.Layout

/-! Code packed into a slot of fixed size. -/
namespace ImageLinker

structure Section where
  index : Nat
  path : String
  used : Nat
  bytes : List UInt8
  deriving DecidableEq, Repr, Inhabited

namespace Section

def pack (layout : Layout) (index : Nat) (path : String) (code : List UInt8) :
    Except LinkError Section :=
  let used := code.length
  if layout.capacity < used then .error (.sectionOverflow path index used layout.capacity)
  else .ok ⟨index, path, used, code ++ List.replicate (layout.capacity - used) 0⟩

end Section

end ImageLinker
