/-! The bytes of the instructions that images, stubs and searches are made of. -/
namespace ImageLinker.Evm.Opcode

def byte : UInt8 := 0x1a
def shl : UInt8 := 0x1b
def callDataLoad : UInt8 := 0x35
def codeCopy : UInt8 := 0x39
def returnDataSize : UInt8 := 0x3d
def mstore : UInt8 := 0x52
def jump : UInt8 := 0x56
def jumpDest : UInt8 := 0x5b
def push0 : UInt8 := 0x5f
def push1 : UInt8 := 0x60
def push2 : UInt8 := 0x61
def push32 : UInt8 := 0x7f
def dup1 : UInt8 := 0x80
def ret : UInt8 := 0xf3
def invalid : UInt8 := 0xfe

/-- How many bytes of data follow an opcode: `n` for a push of `n` bytes, else none. -/
def immediateLength (opcode : UInt8) : Nat :=
  if push1 ≤ opcode ∧ opcode ≤ push32 then opcode.toNat - 0x5f else 0

def push? (n : Nat) : Option UInt8 :=
  if 1 ≤ n ∧ n ≤ 32 then some (UInt8.ofNat (0x5f + n)) else none

end ImageLinker.Evm.Opcode
