import ImageLinker.Evm.Word

/-!
Frame memory: bytes that start as zeros, grow by whole words and never pass a fixed size. Positions
have 64 bits.
-/
namespace ImageLinker.Evm

def addIndex? (a b : Nat) : Option Nat := if a + b < UInt64.size then some (a + b) else none

def lastIndex : Nat := UInt64.size - 1

structure Memory where
  bytes : Array UInt8 := #[]
  deriving DecidableEq, Repr, Inhabited

namespace Memory

/-- No access ends past this size. -/
def limit : Nat := Nat.pow 2 20

def size (m : Memory) : Nat := m.bytes.size

/-- Extends memory with zeros to the whole words that cover `stop` bytes. -/
def growTo (m : Memory) (stop : Nat) : Memory :=
  ⟨m.bytes ++ Array.replicate ((stop + 31) / 32 * 32 - m.bytes.size) 0⟩

/-- The start of a range and memory grown to hold it; none when the range passes the limit.
An empty range starts at zero and grows nothing, wherever it lies. -/
def reserve? (m : Memory) (offset size : Word) : Option (Nat × Memory) := do
  let count ← size.toIndex?
  if count = 0 then return (0, m)
  let start ← offset.toIndex?
  let stop ← addIndex? start count
  if limit < stop then none else return (start, m.growTo stop)

def read (m : Memory) (start count : Nat) : List UInt8 :=
  (m.bytes.extract start (start + count)).toList

def write (m : Memory) (start : Nat) : List UInt8 → Memory
  | [] => m
  | b :: rest => write ⟨m.bytes.setIfInBounds start b⟩ (start + 1) rest

end Memory

/-- So many bytes of a source from an offset on, with zeros past its end. -/
def window (source : Array UInt8) (offset count : Nat) : List UInt8 :=
  (List.range count).map fun i => ((addIndex? offset i).bind fun index => source[index]?).getD 0

end ImageLinker.Evm
