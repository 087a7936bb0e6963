import ImageLinker.Error

/-! Section geometry: every module has a slot of one power of two, so its index gives its offset. -/
namespace ImageLinker

structure Layout where
  shift : Nat
  shift_ge : 5 ≤ shift
  shift_le : shift ≤ 13
  deriving DecidableEq, Repr

namespace Layout

/-- The selector is one byte, and index 0 is the dispatcher's. -/
def maxSections : Nat := 256

def ofShift (shift : Nat) : Except LinkError Layout :=
  if h : 5 ≤ shift ∧ shift ≤ 13 then .ok ⟨shift, h.1, h.2⟩
  else .error (.config (.shiftOutOfRange shift))

def standard : Layout := ⟨6, by decide, by decide⟩

instance : Inhabited Layout := ⟨standard⟩

def capacity (l : Layout) : Nat := Nat.pow 2 l.shift

def probesPerModule (l : Layout) : Nat := l.capacity / 32

def offsetOf (l : Layout) (index : Nat) : Nat := index * l.capacity

def imageLength (l : Layout) (modules : Nat) : Except Misuse Nat :=
  Misuse.checkNumber (l.capacity * (modules + 1))

end Layout

end ImageLinker
