import ImageLinker.Unix.Text

/-!
Numbers with fractions as texts write them. A number is kept as an exact quotient, rounded to the
bits that a machine keeps, and rounded once more to the digits that are shown.
-/
namespace ImageLinker.Unix

inductive Real where
  | finite (negative : Bool) (num den : Nat)
  | infinite (negative : Bool)
  | notANumber (negative : Bool)
  deriving DecidableEq, Repr, Inhabited

namespace Real

/-- The nearest whole number to a quotient; a tie goes to the even neighbour. -/
def roundQuotient (num den : Nat) : Nat :=
  let q := num / den
  let twice := 2 * (num % den)
  if twice < den || (twice == den && q % 2 == 0) then q else q + 1

/-- The nearest quotient whose numerator has so many bits. -/
def roundToBits (bits num den : Nat) : Nat × Nat :=
  if num = 0 then (0, 1)
  else
    let size := fun (n : Nat) => n.log2 + 1
    let up := bits + size den - size num + 1
    let down := size num - (size den + bits) + 1
    let scaledNum := num * Nat.pow 2 up
    let scaledDen := den * Nat.pow 2 down
    let excess := size (scaledNum / scaledDen) - bits
    let kept := roundQuotient scaledNum (scaledDen * Nat.pow 2 excess)
    (kept * Nat.pow 2 (excess + down), Nat.pow 2 up)

def exponentLimit : Nat := 5000

/-- Numbers from this power of two on are infinite for a machine that keeps so many bits. -/
def topExponent (bits : Nat) : Nat := if bits ≤ 53 then 1024 else 16384

/-- An exponent behind its letter: its value and what follows it; nothing is read without digits. -/
def readExponent (letter : Char) (cs : List Char) : Int × List Char :=
  match cs with
  | c :: rest =>
    if c.toLower != letter then (0, cs)
    else
      let (negative, digits) := match rest with
        | '-' :: rest => (true, rest)
        | '+' :: rest => (false, rest)
        | rest => (false, rest)
      match Text.numberPrefix 10 digits.length none digits with
      | (some n, rest) =>
        let n := min n (2 * exponentLimit)
        (if negative then -(n : Int) else n, rest)
      | (none, _) => (0, cs)
  | [] => (0, [])

def scale (num den radix : Nat) (exponent : Int) : Nat × Nat :=
  if 0 ≤ exponent then (num * Nat.pow radix exponent.toNat, den)
  else (num, den * Nat.pow radix (-exponent).toNat)

/-- Digits with a point: their value, how many stand behind the point, and what follows. -/
def readDigits (radix : Nat) (cs : List Char) : Option (Nat × Nat × List Char) :=
  let (whole, rest) := Text.numberPrefix radix cs.length none cs
  match rest with
  | '.' :: behind =>
    let (all, left) := Text.numberPrefix radix behind.length whole behind
    let count := behind.length - left.length
    all.map fun n => (n, count, left)
  | rest => whole.map fun n => (n, 0, rest)

def startsWith (word : String) (cs : List Char) : Bool :=
  word.toList == (cs.take word.length).map Char.toLower

def leastExponent (bits : Nat) : Nat := if bits ≤ 53 then 1074 else 16445

/-- The nearest number that a machine keeps, and whether the quotient lies outside of what it can
keep as exactly as any other. -/
def ofQuotient (bits : Nat) (negative : Bool) (num den : Nat) : Real × Bool :=
  let (n, d) := roundToBits bits num den
  if d.log2 + topExponent bits ≤ n.log2 then (.infinite negative, true)
  else if num == 0 || d.log2 + bits ≤ n.log2 + leastExponent bits + 1 then
    (.finite negative n d, false)
  else
    let unit := Nat.pow 2 (leastExponent bits)
    (.finite negative (roundQuotient (num * unit) den) unit, num * unit % den != 0)

/-- A number that was read from the start of a text. -/
structure Reading where
  value : Real
  outOfRange : Bool := false
  rest : List Char
  deriving DecidableEq, Repr, Inhabited

/-- The number at the start of a text behind blanks. -/
def read (bits : Nat) (text : List Char) : Option Reading :=
  let cs := text.dropWhile Text.isSpace
  let (negative, cs) := match cs with
    | '-' :: rest => (true, rest)
    | '+' :: rest => (false, rest)
    | cs => (false, cs)
  let finite := fun (num den : Nat) (rest : List Char) =>
    let (value, outOfRange) := ofQuotient bits negative num den
    { value, outOfRange, rest : Reading }
  let isHex := match cs with
    | '0' :: x :: _ => x == 'x' || x == 'X'
    | _ => false
  if startsWith "infinity" cs then some { value := .infinite negative, rest := cs.drop 8 }
  else if startsWith "inf" cs then some { value := .infinite negative, rest := cs.drop 3 }
  else if startsWith "nan" cs then some { value := .notANumber negative, rest := cs.drop 3 }
  else
    match if isHex then readDigits 16 (cs.drop 2) else none with
    | some (n, count, rest) =>
      let (exponent, rest) := readExponent 'p' rest
      let (num, den) := scale n 1 2 (exponent - 4 * count)
      some (finite num den rest)
    | none =>
      (readDigits 10 cs).map fun (n, count, rest) =>
        let (exponent, rest) := readExponent 'e' rest
        let (num, den) := scale n 1 10 (exponent - count)
        finite num den rest

def padded (count n : Nat) : List Char :=
  let ds := Nat.toDigits 10 n
  List.replicate (count - ds.length) '0' ++ ds

def fraction (alternate : Bool) (digits : List Char) : List Char :=
  if digits.isEmpty && !alternate then [] else '.' :: digits

def fixed (alternate : Bool) (places num den : Nat) : List Char :=
  let ds := padded (places + 1) (roundQuotient (num * Nat.pow 10 places) den)
  let whole := ds.length - places
  ds.take whole ++ fraction alternate (ds.drop whole)

def exponentOf (num den : Nat) : Int :=
  if num = 0 then 0
  else
    let count := fun (n : Nat) => (Nat.toDigits 10 n).length
    let guess : Int := (count num : Int) - count den
    let (n, d) := scale num den 10 (-guess)
    if n < d then guess - 1 else guess

def digitsAndExponent (places num den : Nat) : List Char × Int :=
  let e := exponentOf num den
  let (n, d) := scale num den 10 ((places : Int) - e)
  let ds := Nat.toDigits 10 (roundQuotient n d)
  if ds.length > places + 1 then (ds.take (places + 1), e + 1)
  else (List.replicate (places + 1 - ds.length) '0' ++ ds, e)

def exponentText (e : Int) : List Char :=
  'e' :: (if e < 0 then '-' else '+') :: padded 2 e.natAbs

def scientific (alternate : Bool) (places num den : Nat) : List Char :=
  let (ds, e) := digitsAndExponent places num den
  ds.take 1 ++ fraction alternate (ds.drop 1) ++ exponentText e

def dropZeros (ds : List Char) : List Char := (ds.reverse.dropWhile (· == '0')).reverse

/-- The shorter of both ways, with so many digits in all. -/
def general (alternate : Bool) (digits num den : Nat) : List Char :=
  let places := max digits 1 - 1
  let (ds, e) := digitsAndExponent places num den
  let trim := fun (ds : List Char) => if alternate then ds else dropZeros ds
  if -4 ≤ e && e ≤ places then
    let text := fixed true ((places : Int) - e).toNat num den
    let whole := text.takeWhile (· != '.')
    whole ++ fraction alternate (trim (text.drop (whole.length + 1)))
  else ds.take 1 ++ fraction alternate (trim (ds.drop 1)) ++ exponentText e

/-- How many bits the digit in front of the point has in hexadecimal, so that whole digits are left
behind it. -/
def leadingBits (bits : Nat) : Nat := (bits - 1) % 4 + 1

/-- In hexadecimal, with one digit in front of the point and all bits shown. -/
def hexadecimal (bits : Nat) (alternate : Bool) (places : Option Nat) (num den : Nat) : List Char :=
  if num = 0 then
    "0x0".toList ++ fraction alternate (List.replicate (places.getD 0) '0') ++ "p+0".toList
  else
    let e : Int := (num.log2 : Int) - den.log2
    let (n, d) := scale num den 2 (-e)
    let (n, d, e) := if n < d then (2 * n, d, e - 1) else (n, d, e)
    let lead := leadingBits bits
    let count := places.getD ((bits - lead) / 4)
    let value := roundQuotient (n * Nat.pow 2 (lead - 1) * Nat.pow 16 count) d
    let ds := Nat.toDigits 16 value
    let carries := count + 1 < ds.length
    let e := e - ((lead : Int) - 1) + (if carries then 4 else 0)
    let behind := (ds.drop 1).take count
    let behind := if places.isNone then dropZeros behind else behind
    let sign := if e < 0 then '-' else '+'
    "0x".toList ++ ds.take 1 ++ fraction alternate behind ++ ['p', sign] ++ Nat.toDigits 10 e.natAbs

end Real

end ImageLinker.Unix
