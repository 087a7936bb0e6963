import ImageLinker.Evm.Opcode
import ImageLinker.Section
import ImageLinker.Variant

/-! Runtime images: a dispatcher in section 0 and one module in each section behind it. -/
namespace ImageLinker

/-- A source and the section that its code goes to, counted from 1. -/
structure Module where
  path : String
  sectionIndex : Nat
  deriving DecidableEq, Repr, Inhabited

def Module.ofPaths (paths : List String) : List Module :=
  (paths.zipIdx 1).map fun (path, index) => ⟨path, index⟩

structure CompiledModule where
  module : Module
  code : List UInt8
  /-- The offsets in the code that the choice of zero pushes changed. -/
  substitutions : List Nat := []
  deriving DecidableEq, Repr, Inhabited

/-- Jumps to the section whose index is the first byte of the call's data. The size of returned data
is a zero of one byte, on every target, until something is called. -/
def dispatcher (layout : Layout) : List UInt8 :=
  [Evm.Opcode.returnDataSize, Evm.Opcode.callDataLoad, Evm.Opcode.returnDataSize, Evm.Opcode.byte,
    Evm.Opcode.push1, UInt8.ofNat layout.shift, Evm.Opcode.shl, Evm.Opcode.jump]

structure Image where
  variant : Variant
  layout : Layout
  sections : List Section
  /-- The offsets in the image that the choice of zero pushes changed. -/
  substitutions : List Nat
  deriving DecidableEq, Repr, Inhabited

namespace Image

def bytes (image : Image) : List UInt8 := image.sections.flatMap (·.bytes)

def length (image : Image) : Nat := image.bytes.length

def modules (image : Image) : List Section := image.sections.drop 1

/-- Packs a module into the section it expects to get, and moves the offsets of its substitutions
there. -/
def packModule (layout : Layout) (compiled : CompiledModule) (expected : Nat) :
    Except Failure (Section × List Nat) := do
  let index := compiled.module.sectionIndex
  if index ≠ expected then throw (.misuse (.sectionOutOfOrder index expected))
  let substitutions ← compiled.substitutions.mapM fun offset =>
    (Misuse.checkNumber (layout.offsetOf index + offset)).mapError Failure.misuse
  let packed ← (Section.pack layout index compiled.module.path compiled.code).mapError .error
  return (packed, substitutions)

/-- Packs modules, which are in section order, behind the dispatcher. -/
def assemble (layout : Layout) (variant : Variant) (compiled : List CompiledModule) :
    Except Failure Image := do
  if Layout.maxSections ≤ compiled.length then
    throw (.error (.config (.selectorTooNarrow compiled.length)))
  let head ← (Section.pack layout 0 "<dispatcher>" (dispatcher layout)).mapError .error
  let packed ← (compiled.zipIdx 1).mapM fun (m, expected) => packModule layout m expected
  return ⟨variant, layout, head :: packed.map (·.1), packed.flatMap (·.2)⟩

def differingOffsets (a b : Image) : Except LinkError (List Nat) :=
  let left := a.bytes
  let right := b.bytes
  if left.length ≠ right.length then .error (.variantMismatch left.length right.length)
  else .ok (((left.zip right).zipIdx.filter fun ((x, y), _) => x != y).map (·.2))

end Image

end ImageLinker
