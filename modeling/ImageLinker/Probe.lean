import ImageLinker.Evm.Opcode
import ImageLinker.Layout
import ImageLinker.Sentinel
import ImageLinker.Variant

/-!
A probe stores a sentinel at the start of a module's code. The compiler turns it into bytes that are
known beforehand, and what follows the last of them is the code that the module's source asks for.
-/
namespace ImageLinker

structure Probe where
  offset : UInt8
  sentinel : Sentinel
  deriving DecidableEq, Repr

namespace Probe

def yul (p : Probe) : String :=
  " mstore(0x" ++ Hex.ofNat 1 p.offset.toNat ++ ",0x" ++ p.sentinel.text ++ ")"

def offsetPush (variant : Variant) (offset : UInt8) : List UInt8 :=
  if variant = .push0 ∧ offset = 0 then [Evm.Opcode.push0] else [Evm.Opcode.push1, offset]

def encoding (p : Probe) (variant : Variant) : List UInt8 :=
  (Evm.Opcode.push? p.sentinel.width).toList ++ p.sentinel.bytes ++
    offsetPush variant p.offset ++ [Evm.Opcode.mstore]

/-- Looks from the end of a reversed code for a reversed pattern; `stop` is the length of the code
that is left. -/
def endOfLastFrom (pattern : List UInt8) : (code : List UInt8) → (stop : Nat) → Option Nat
  | b :: rest, stop =>
    if pattern.isPrefixOf (b :: rest) then some stop else endOfLastFrom pattern rest (stop - 1)
  | [], stop => if pattern.isEmpty then some stop else none

def endOfLast? (pattern code : List UInt8) : Option Nat :=
  endOfLastFrom pattern.reverse code.reverse code.length

/-- The offset just past the last occurrence of a probe's bytes. -/
def codeStart? (p : Probe) (variant : Variant) (code : List UInt8) : Option Nat :=
  endOfLast? (p.encoding variant) code

end Probe

/-- How many probes each module of a build carries. A module carries those of all modules before it
and as many of its own, which tells modules apart without an order between their compilations. -/
structure ProbePlan where
  perModule : Nat
  cumulative : List Nat
  deriving DecidableEq, Repr, Inhabited

namespace ProbePlan

def make (layout : Layout) (modules : Nat) : ProbePlan where
  perModule := layout.probesPerModule
  cumulative := (List.range modules).map fun i => layout.probesPerModule * (i + 1)

def probesFor (plan : ProbePlan) (index : Nat) : Except Misuse Nat :=
  match index with
  | 0 => .error (.sectionOutsidePlan 0)
  | i + 1 =>
    match plan.cumulative[i]? with
    | some count => .ok count
    | none => .error (.sectionOutsidePlan (i + 1))

/-- The first probe of a module is one byte wider than the others. -/
def sentinelWidth (k : Nat) : Nat := if k = 0 then 29 else 28

/-- Probes store at offsets that go down from the last byte, over again for each module's group. -/
def offsetAt (plan : ProbePlan) (k : Nat) : UInt8 := 0xff - UInt8.ofNat (k % plan.perModule)

def drawFrom (plan : ProbePlan) (done : Array Probe) (k : Nat) :
    (count : Nat) → ByteStream → Except Misuse (List Probe × ByteStream)
  | 0, stream => .ok (done.toList, stream)
  | count + 1, stream => do
    let (sentinel, stream) ← Sentinel.draw (sentinelWidth k) stream
    drawFrom plan (done.push ⟨plan.offsetAt k, sentinel⟩) (k + 1) count stream

def draw (plan : ProbePlan) (index : Nat) (stream : ByteStream) :
    Except Misuse (List Probe × ByteStream) := do
  plan.drawFrom #[] 0 (← plan.probesFor index) stream

end ProbePlan

end ImageLinker
