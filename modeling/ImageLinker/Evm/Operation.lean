import ImageLinker.Evm.Word

/-! What an opcode does, grouped by how it uses the stack. -/
namespace ImageLinker.Evm

/-- Operations that replace the two topmost words by one. -/
inductive BinaryOp where
  | add | mul | sub | lt | gt | eq | and | or | byte | shl | shr
  deriving DecidableEq, Repr, Inhabited

def BinaryOp.eval : BinaryOp → (a b : Word) → Word
  | .add, a, b => a.add b
  | .mul, a, b => a.mul b
  | .sub, a, b => a.sub b
  | .lt, a, b => .ofBool (a.cmp b == .lt)
  | .gt, a, b => .ofBool (a.cmp b == .gt)
  | .eq, a, b => .ofBool (a == b)
  | .and, a, b => a.and b
  | .or, a, b => a.or b
  | .byte, a, b => b.byteAt a
  | .shl, a, b => b.shiftLeft a
  | .shr, a, b => b.shiftRight a

/-- Operations that replace the topmost word. -/
inductive UnaryOp where
  | isZero | not
  deriving DecidableEq, Repr, Inhabited

def UnaryOp.eval : UnaryOp → Word → Word
  | .isZero, a => .ofBool a.isZero
  | .not, a => a.not

/-- Values that a frame can read without an operand. -/
inductive Reading where
  | callValue | callDataSize | codeSize | returnDataSize | programCounter | memorySize | gas
  deriving DecidableEq, Repr, Inhabited

inductive CopySource where
  | callData | code
  deriving DecidableEq, Repr, Inhabited

inductive Operation where
  | stop
  | binary (op : BinaryOp)
  | unary (op : UnaryOp)
  | read (what : Reading)
  | callDataLoad
  | copy (source : CopySource)
  | pop
  | mload
  | mstore
  | mstore8
  | jump
  | jumpIf
  | jumpDest
  | pushZero
  | push (width : Nat)
  /-- Copies the `n`-th word counted from the top, which is the first. -/
  | dup (n : Nat)
  | swap (n : Nat)
  | create
  | ret
  | revert
  | undefined
  deriving DecidableEq, Repr, Inhabited

namespace Operation

/-- The operation of an opcode outside the ranges of pushes, copies and exchanges. -/
def ofPlainByte : Nat → Operation
  | 0x00 => .stop
  | 0x01 => .binary .add
  | 0x02 => .binary .mul
  | 0x03 => .binary .sub
  | 0x10 => .binary .lt
  | 0x11 => .binary .gt
  | 0x14 => .binary .eq
  | 0x15 => .unary .isZero
  | 0x16 => .binary .and
  | 0x17 => .binary .or
  | 0x19 => .unary .not
  | 0x1a => .binary .byte
  | 0x1b => .binary .shl
  | 0x1c => .binary .shr
  | 0x34 => .read .callValue
  | 0x35 => .callDataLoad
  | 0x36 => .read .callDataSize
  | 0x37 => .copy .callData
  | 0x38 => .read .codeSize
  | 0x39 => .copy .code
  | 0x3d => .read .returnDataSize
  | 0x50 => .pop
  | 0x51 => .mload
  | 0x52 => .mstore
  | 0x53 => .mstore8
  | 0x56 => .jump
  | 0x57 => .jumpIf
  | 0x58 => .read .programCounter
  | 0x59 => .read .memorySize
  | 0x5a => .read .gas
  | 0x5b => .jumpDest
  | 0x5f => .pushZero
  | 0xf0 => .create
  | 0xf3 => .ret
  | 0xfd => .revert
  | _ => .undefined

def ofByte (b : UInt8) : Operation :=
  let n := b.toNat
  if 0x60 ≤ n ∧ n ≤ 0x7f then .push (n - 0x5f)
  else if 0x80 ≤ n ∧ n ≤ 0x8f then .dup (n - 0x7f)
  else if 0x90 ≤ n ∧ n ≤ 0x9f then .swap (n - 0x8f)
  else ofPlainByte n

end Operation

end ImageLinker.Evm
