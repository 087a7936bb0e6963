import ImageLinker.Error

/-! Random numbers of an exact width, drawn from a supply of bytes. -/
namespace ImageLinker

/-- A supply of random bytes: the given ones in order, then `0xa5` for ever, so that every draw
ends. -/
structure ByteStream where
  rest : List UInt8 := []
  used : Nat := 0
  deriving DecidableEq, Repr, Inhabited

namespace ByteStream

def filler : UInt8 := 0xa5

def peek (s : ByteStream) (count : Nat) : List UInt8 :=
  let given := s.rest.take count
  given ++ List.replicate (count - given.length) filler

theorem length_peek (s : ByteStream) (count : Nat) : (s.peek count).length = count := by
  simp only [peek, List.length_append, List.length_take, List.length_replicate]
  omega

def skip (s : ByteStream) (count : Nat) : ByteStream := ⟨s.rest.drop count, s.used + count⟩

end ByteStream

/-- A number of one to 32 bytes, most significant first. -/
structure Sentinel where
  bytes : List UInt8
  width_pos : 1 ≤ bytes.length
  width_le : bytes.length ≤ 32
  deriving DecidableEq, Repr

namespace Sentinel

/-- Sets the lowest bit of the last byte. -/
def makeOdd : List UInt8 → List UInt8
  | [] => []
  | [b] => [b ||| 1]
  | b :: rest => b :: makeOdd rest

@[simp] theorem length_makeOdd (bytes : List UInt8) : (makeOdd bytes).length = bytes.length := by
  fun_induction makeOdd bytes <;> simp_all

/-- Takes chunks of a width, made odd, until one does not begin with zero. -/
def drawChunk (width : Nat) (s : ByteStream) : List UInt8 × ByteStream :=
  match s with
  | ⟨0 :: tail, used⟩ =>
    if width ≤ 1 then (makeOdd (s.peek width), s.skip width)
    else drawChunk width ⟨tail.drop (width - 1), used + width⟩
  | s => (makeOdd (s.peek width), s.skip width)
termination_by s.rest.length
decreasing_by simp only [List.length_drop, List.length_cons]; omega

theorem length_drawChunk (width : Nat) (s : ByteStream) : (drawChunk width s).1.length = width := by
  fun_induction drawChunk width s with
  | case1 => rw [length_makeOdd, ByteStream.length_peek]
  | case2 _ _ _ ih => exact ih
  | case3 => rw [length_makeOdd, ByteStream.length_peek]

/-- Draws an odd number whose first byte is not zero. -/
def draw (width : Nat) (s : ByteStream) : Except Misuse (Sentinel × ByteStream) :=
  if h : 1 ≤ width ∧ width ≤ 32 then
    have e := length_drawChunk width s
    .ok (⟨(drawChunk width s).1, by omega, by omega⟩, (drawChunk width s).2)
  else .error (.sentinelWidth width)

def width (s : Sentinel) : Nat := s.bytes.length

def text (s : Sentinel) : String := Hex.encode s.bytes

end Sentinel

end ImageLinker
