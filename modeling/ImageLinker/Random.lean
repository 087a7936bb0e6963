import ImageLinker.Sentinel

/-! Random bytes from a seed of 64 bits. What a build prints does not depend on them. -/
namespace ImageLinker

/-- A counter that a mixing function turns into words. -/
structure Generator where
  state : UInt64
  deriving DecidableEq, Repr, Inhabited

namespace Generator

def increment : UInt64 := 0x9e3779b97f4a7c15

/-- A permutation of words that spreads every bit over the whole word. -/
def mix (z : UInt64) : UInt64 :=
  let z := (z ^^^ (z >>> 30)) * 0xbf58476d1ce4e5b9
  let z := (z ^^^ (z >>> 27)) * 0x94d049bb133111eb
  z ^^^ (z >>> 31)

def next (g : Generator) : UInt64 × Generator :=
  let state := g.state + increment
  (mix state, ⟨state⟩)

/-- Splits off generators one after the other, so that who uses them when makes no difference. -/
def fork (g : Generator) : (count : Nat) → List Generator × Generator
  | 0 => ([], g)
  | count + 1 =>
    let (seed, g) := g.next
    let (rest, g) := fork g count
    (⟨seed⟩ :: rest, g)

def bytesOfWord (w : UInt64) : List UInt8 :=
  (List.range 8).map fun i => (w >>> UInt64.ofNat (8 * i)).toUInt8

def stream (g : Generator) (words : Nat) : ByteStream where
  rest := (List.range words).flatMap fun i =>
    bytesOfWord (mix (g.state + increment * UInt64.ofNat (i + 1)))

end Generator

end ImageLinker
