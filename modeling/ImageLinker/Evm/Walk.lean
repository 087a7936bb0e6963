import ImageLinker.Evm.Opcode

/-! The instructions of a code, read from its first byte so that push data is never an opcode. -/
namespace ImageLinker.Evm

/-- An instruction and its data, which is cut short only where the code ends inside it. -/
structure Instruction where
  offset : Nat
  opcode : UInt8
  immediate : List UInt8
  deriving DecidableEq, Repr, Inhabited

namespace Instruction

def next (i : Instruction) : Nat := i.offset + 1 + i.immediate.length

end Instruction

def walkFrom (done : Array Instruction) (offset : Nat) : List UInt8 → Array Instruction
  | [] => done
  | opcode :: rest =>
    let width := Opcode.immediateLength opcode
    let instruction : Instruction := ⟨offset, opcode, rest.take width⟩
    walkFrom (done.push instruction) instruction.next (rest.drop width)
termination_by code => code.length
decreasing_by simp only [List.length_drop, List.length_cons]; omega

def instructions (code : List UInt8) : List Instruction :=
  (walkFrom #[] 0 code).toList

/-- The offsets of instructions at which a non-empty pattern of bytes occurs. -/
def findAligned (code pattern : List UInt8) : List Nat :=
  if pattern.isEmpty then []
  else
    let bytes := code.toArray
    ((instructions code).map Instruction.offset).filter fun offset =>
      (bytes.extract offset (offset + pattern.length)).toList == pattern

def jumpDestinations (code : List UInt8) : List Nat :=
  ((instructions code).filter (·.opcode == Opcode.jumpDest)).map Instruction.offset

end ImageLinker.Evm
