import ImageLinker.Evm.Memory
import ImageLinker.Evm.Operation
import ImageLinker.Evm.Walk

/-!
A machine that runs code one instruction at a time: stack and memory operations, jumps, and the
creation of nested frames. There is no gas and no storage; a limit on steps stands in for both.
-/
namespace ImageLinker.Evm

def stackLimit : Nat := 1024

def stepLimit : Nat := 100000

def depthLimit : Nat := 8

def createdAddress : Word := .ofNat 0x00c0ffee

def gasRemaining : Word := .ofNat 30000000

/-- What a run can see apart from its code. -/
structure Environment where
  calldata : List UInt8 := []
  push0 : Bool := false
  deriving DecidableEq, Repr, Inhabited

inductive Fault where
  | invalidOpcode (pc : Nat) (opcode : UInt8)
  | badJump (pc : Nat) (destination : Word)
  | stackUnderflow (pc : Nat)
  | stackOverflow (pc : Nat)
  | memoryLimit (pc : Nat)
  | stepLimit
  deriving DecidableEq, Repr, Inhabited

inductive Halt where
  | stopped
  | returned (data : List UInt8)
  | reverted (data : List UInt8)
  | faulted (fault : Fault)
  deriving DecidableEq, Repr, Inhabited

namespace Halt

def isSuccess : Halt → Bool
  | .stopped | .returned _ => true
  | _ => false

/-- What a later reading of the size of returned data gives in the creating frame. -/
def revertedSize : Halt → Nat
  | .reverted data => data.length
  | _ => 0

end Halt

structure Outcome where
  halt : Halt
  jumps : List Nat
  steps : Nat
  deriving DecidableEq, Repr, Inhabited

/-- What stays fixed while a frame runs. -/
structure Frame where
  code : Array UInt8
  destinations : Array Bool
  calldata : Array UInt8
  push0 : Bool

namespace Frame

def ofCode (code : List UInt8) (env : Environment) : Frame where
  code := code.toArray
  destinations := (jumpDestinations code).foldl
    (fun valid offset => valid.setIfInBounds offset true) (Array.replicate code.length false)
  calldata := env.calldata.toArray
  push0 := env.push0

def isDestination (f : Frame) (offset : Nat) : Bool := f.destinations[offset]?.getD false

def source (f : Frame) : CopySource → Array UInt8
  | .callData => f.calldata
  | .code => f.code

/-- The bytes of calldata that make up a word; zeros at an offset that is no position. -/
def loaded (f : Frame) (offset : Word) : List UInt8 :=
  match offset.toIndex? with
  | some start => window f.calldata start 32
  | none => List.replicate 32 0

/-- The bytes of a source that a copy takes; those from the last position on at an offset that is no
position. -/
def copied (f : Frame) (what : CopySource) (offset size : Word) : List UInt8 :=
  window (f.source what) (offset.toIndex?.getD lastIndex) size.toNat

end Frame

structure Machine where
  pc : Nat := 0
  stack : List Word := []
  memory : Memory := {}
  returnDataSize : Nat := 0
  jumps : Array Nat := #[]
  steps : Nat := 0
  deriving DecidableEq, Repr, Inhabited

/-- Either the state after an instruction, or how the frame ends and its last state. -/
inductive Transition where
  | next (m : Machine)
  | halt (h : Halt) (m : Machine)
  deriving DecidableEq, Repr, Inhabited

namespace Machine

def fault (m : Machine) (f : Fault) : Transition := .halt (.faulted f) m

/-- Replaces the stack and goes to the instruction behind an immediate of the given width. -/
def proceed (m : Machine) (stack : List Word) (width : Nat := 0) : Transition :=
  .next { m with stack, pc := m.pc + 1 + width }

def push (m : Machine) (w : Word) (width : Nat := 0) : Transition :=
  if stackLimit ≤ m.stack.length then m.fault (.stackOverflow m.pc)
  else m.proceed (w :: m.stack) width

def jumpTo (m : Machine) (frame : Frame) (destination : Word) (stack : List Word) : Transition :=
  match destination.toIndex? with
  | some offset =>
    if frame.isDestination offset then
      .next { m with stack, pc := offset, jumps := m.jumps.push offset }
    else m.fault (.badJump m.pc destination)
  | none => m.fault (.badJump m.pc destination)

def reading (m : Machine) (frame : Frame) : Reading → Word
  | .callValue => .zero
  | .callDataSize => .ofNat frame.calldata.size
  | .codeSize => .ofNat frame.code.size
  | .returnDataSize => .ofNat m.returnDataSize
  | .programCounter => .ofNat m.pc
  | .memorySize => .ofNat m.memory.size
  | .gas => gasRemaining

/-- Goes on behind a creation with `below` on the stack. `spawn` runs the code of a new frame, and
is missing where no further frame fits. -/
def create (m : Machine) (spawn : Option (List UInt8 → Outcome)) (code : List UInt8)
    (below : List Word) : Transition :=
  match spawn with
  | none => m.proceed (.zero :: below)
  | some run =>
    let outcome := run code
    let address := if outcome.halt.isSuccess then createdAddress else .zero
    { m with steps := m.steps + outcome.steps, returnDataSize := outcome.halt.revertedSize }.proceed
      (address :: below)

/-- The effect of an operation on the machine. Operands are popped before they are judged. -/
def perform (m : Machine) (frame : Frame) (spawn : Option (List UInt8 → Outcome)) (opcode : UInt8) :
    Transition :=
  match Operation.ofByte opcode, m.stack with
  | .stop, _ => .halt .stopped m
  | .binary op, a :: b :: below => m.proceed (op.eval a b :: below)
  | .unary op, a :: below => m.proceed (op.eval a :: below)
  | .read what, _ => m.push (m.reading frame what)
  | .callDataLoad, offset :: below =>
    m.proceed (.ofBytes (frame.loaded offset) :: below)
  | .copy source, dest :: offset :: size :: below =>
    match m.memory.reserve? dest size with
    | some (start, memory) =>
      { m with memory := memory.write start (frame.copied source offset size) }.proceed below
    | none => m.fault (.memoryLimit m.pc)
  | .pop, _ :: below => m.proceed below
  | .mload, offset :: below =>
    match m.memory.reserve? offset (.ofNat 32) with
    | some (start, memory) =>
      { m with memory }.proceed (.ofBytes (memory.read start 32) :: below)
    | none => m.fault (.memoryLimit m.pc)
  | .mstore, offset :: value :: below =>
    match m.memory.reserve? offset (.ofNat 32) with
    | some (start, memory) => { m with memory := memory.write start value.toBytes }.proceed below
    | none => m.fault (.memoryLimit m.pc)
  | .mstore8, offset :: value :: below =>
    match m.memory.reserve? offset .one with
    | some (start, memory) =>
      { m with memory := memory.write start [value.limb0.toUInt8] }.proceed below
    | none => m.fault (.memoryLimit m.pc)
  | .jump, destination :: below => m.jumpTo frame destination below
  | .jumpIf, destination :: condition :: below =>
    if condition.isZero then m.proceed below else m.jumpTo frame destination below
  | .jumpDest, stack => m.proceed stack
  | .pushZero, _ => if frame.push0 then m.push .zero else m.fault (.invalidOpcode m.pc opcode)
  | .push width, _ =>
    let immediate := (frame.code.extract (m.pc + 1) (m.pc + 1 + width)).toList
    m.push (.ofImmediate immediate width) width
  | .dup n, stack =>
    match stack[n - 1]? with
    | some w => m.push w
    | none => m.fault (.stackUnderflow m.pc)
  | .swap n, stack =>
    match stack[0]?, stack[n]? with
    | some top, some other => m.proceed ((stack.set n top).set 0 other)
    | _, _ => m.fault (.stackUnderflow m.pc)
  | .create, _ :: offset :: size :: below =>
    match m.memory.reserve? offset size with
    | some (start, memory) =>
      let code := memory.read start size.toNat
      { m with memory }.create spawn code below
    | none => m.fault (.memoryLimit m.pc)
  | .ret, offset :: size :: below =>
    match m.memory.reserve? offset size with
    | some (start, memory) =>
      .halt (.returned (memory.read start size.toNat)) { m with memory, stack := below }
    | none => m.fault (.memoryLimit m.pc)
  | .revert, offset :: size :: below =>
    match m.memory.reserve? offset size with
    | some (start, memory) =>
      .halt (.reverted (memory.read start size.toNat)) { m with memory, stack := below }
    | none => m.fault (.memoryLimit m.pc)
  | .undefined, _ => m.fault (.invalidOpcode m.pc opcode)
  | _, _ => m.fault (.stackUnderflow m.pc)

/-- Counts the step, then performs the instruction at the program counter. Code that is left at
its end stops. -/
def step (frame : Frame) (spawn : Option (List UInt8 → Outcome)) (m : Machine) : Transition :=
  let m := { m with steps := m.steps + 1 }
  if stepLimit < m.steps then m.fault .stepLimit
  else
    match frame.code[m.pc]? with
    | some opcode => m.perform frame spawn opcode
    | none => .halt .stopped m

/-- Steps until the frame ends. One step more than the limit always suffices. -/
def drive (frame : Frame) (spawn : Option (List UInt8 → Outcome)) : (fuel : Nat) → Machine → Outcome
  | 0, m => ⟨.faulted .stepLimit, m.jumps.toList, m.steps⟩
  | fuel + 1, m =>
    match m.step frame spawn with
    | .next m => drive frame spawn fuel m
    | .halt h m => ⟨h, m.jumps.toList, m.steps⟩

end Machine

/-- Runs code in a frame that `room` further frames fit into. Created frames see no calldata. -/
def runFrame (push0 : Bool) : (room : Nat) → (code calldata : List UInt8) → Outcome
  | 0, code, calldata =>
    Machine.drive (.ofCode code ⟨calldata, push0⟩) none (stepLimit + 1) {}
  | room + 1, code, calldata =>
    let spawn := fun created => runFrame push0 room created []
    Machine.drive (.ofCode code ⟨calldata, push0⟩) (some spawn) (stepLimit + 1) {}

def run (code : List UInt8) (env : Environment) : Outcome :=
  runFrame env.push0 (depthLimit - 1) code env.calldata

end ImageLinker.Evm
