/-! Spans of time and their text: the largest of s, ms, µs and ns that gives a whole part. -/
namespace ImageLinker

structure Duration where
  nanoseconds : Nat
  deriving DecidableEq, Repr, Inhabited

namespace Duration

def ofSeconds (n : Nat) : Duration := ⟨n * 1000000000⟩

def ofMilliseconds (n : Nat) : Duration := ⟨n * 1000000⟩

/-- A point and the digits of a fraction below `10 ^ places`, without zeros at the end; nothing for
zero. -/
def fraction (places n : Nat) : String :=
  if n = 0 then ""
  else
    let digits := Nat.toDigits 10 n
    let padded := List.replicate (places - digits.length) '0' ++ digits
    "." ++ String.ofList (padded.reverse.dropWhile (· == '0')).reverse

def inUnit (d : Duration) (places : Nat) (unit : String) : String :=
  let size := Nat.pow 10 places
  toString (d.nanoseconds / size) ++ fraction places (d.nanoseconds % size) ++ unit

def text (d : Duration) : String :=
  if 1000000000 ≤ d.nanoseconds then d.inUnit 9 "s"
  else if 1000000 ≤ d.nanoseconds then d.inUnit 6 "ms"
  else if 1000 ≤ d.nanoseconds then d.inUnit 3 "µs"
  else d.inUnit 0 "ns"

end Duration

end ImageLinker
