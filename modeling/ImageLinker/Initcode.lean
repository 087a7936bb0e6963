import ImageLinker.Evm.Walk
import ImageLinker.Image

/-!
Initcode: what a deployment runs to return its runtime image. One image follows a fixed stub that
copies it. Two images follow a compiled shim that picks one of them; its placeholders are patched
with its own length and with that of an image.
-/
namespace ImageLinker.Initcode

open Evm

def maxImageLength : Nat := 0xffff

/-- The instruction `PUSH1 0x33` in a compiled shim stands for the length of the shim. -/
def offsetPlaceholder : List UInt8 := [Opcode.push1, 0x33]

/-- The instruction `PUSH2 0xffee` in a compiled shim stands for the length of one image. -/
def lengthPlaceholder : List UInt8 := [Opcode.push2, 0xff, 0xee]

def lengthBytes (length : Nat) : Except LinkError (UInt8 × UInt8) :=
  if length ≤ maxImageLength then .ok (UInt8.ofNat (length / 256), UInt8.ofNat length)
  else .error (.imageTooLarge length maxImageLength)

def deployStub (length : Nat) : Except LinkError (List UInt8) := do
  let (high, low) ← lengthBytes length
  return [Opcode.push2, high, low, Opcode.dup1, Opcode.push1, 0x0a, Opcode.returnDataSize,
    Opcode.codeCopy, Opcode.returnDataSize, Opcode.ret]

def single (image : Image) : Except LinkError (List UInt8) := do
  return (← deployStub image.length) ++ image.bytes

/-- What follows the first `RETURN INVALID` in compiler output, which is the code it deploys. -/
def deployedCode (initcode : List UInt8) : Option (List UInt8) :=
  (findAligned initcode [Opcode.ret, Opcode.invalid]).head?.map fun offset =>
    initcode.drop (offset + 2)

def setImmediates (code : Array UInt8) (offsets : List Nat) (data : List UInt8) : Array UInt8 :=
  offsets.foldl (fun code offset =>
    (data.zipIdx (offset + 1)).foldl (fun code (b, at_) => code.setIfInBounds at_ b) code) code

/-- Puts the length of the shim and the length of an image in the place of every placeholder. Both
placeholders must be there. -/
def patchShim (shim : List UInt8) (imageLength : Nat) : Except LinkError (List UInt8) := do
  let offsets := findAligned shim offsetPlaceholder
  let lengths := findAligned shim lengthPlaceholder
  if offsets.isEmpty then throw (.shimPatch .noOffsetPlaceholder)
  if lengths.isEmpty then throw (.shimPatch .noLengthPlaceholder)
  if 255 < shim.length then throw (.shimPatch (.tooLong shim.length))
  let (high, low) ← lengthBytes imageLength
  let patched := setImmediates shim.toArray offsets [UInt8.ofNat shim.length]
  return (setImmediates patched lengths [high, low]).toList

def conditional (compiled : List UInt8) (push0 legacy : Image) : Except LinkError (List UInt8) := do
  match deployedCode compiled with
  | none => throw (.shimPatch .noBoundary)
  | some shim => return (← patchShim shim push0.length) ++ push0.bytes ++ legacy.bytes

end ImageLinker.Initcode
