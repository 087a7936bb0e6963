import ImageLinker.Text.Blank
import ImageLinker.Text.Quoted

/-! Hexadecimal text: byte strings as pairs of digits, and numbers with a least width. -/
namespace ImageLinker.Hex

inductive Fault where
  | oddLength (size : Nat)
  | unexpected (byte : UInt8)
  | stated (text : String)
  deriving DecidableEq, Repr, Inhabited

def Fault.message : Fault → String
  | .oddLength size => s!"odd length {size}"
  | .unexpected byte => "unexpected character " ++ Text.quoteChar (Char.ofNat byte.toNat)
  | .stated text => text

def digit (n : Nat) : Char :=
  if n < 10 then Char.ofNat (48 + n) else Char.ofNat (87 + n)

def digitsOfByte (b : UInt8) : List Char :=
  [digit (b.toNat / 16), digit (b.toNat % 16)]

def encode (bytes : List UInt8) : String :=
  String.ofList (bytes.flatMap digitsOfByte)

/-- A number in lowercase digits, filled with zeros on the left to the width. -/
def ofNat (width n : Nat) : String :=
  let digits := Nat.toDigits 16 n
  String.ofList (List.replicate (width - digits.length) '0' ++ digits)

def isDigit (c : Char) : Bool :=
  c.isDigit || ('a' ≤ c && c ≤ 'f') || ('A' ≤ c && c ≤ 'F')

/-- The value of a digit given as its ASCII byte. -/
def nibble (b : UInt8) : Except Fault UInt8 :=
  if 48 ≤ b ∧ b ≤ 57 then .ok (b - 48)
  else if 97 ≤ b ∧ b ≤ 102 then .ok (b - 87)
  else if 65 ≤ b ∧ b ≤ 70 then .ok (b - 55)
  else .error (.unexpected b)

/-- Appends the bytes that the pairs of digits denote; the first bad digit decides the fault. -/
def decodePairs (done : Array UInt8) : List UInt8 → Except Fault (Array UInt8)
  | high :: low :: rest =>
    match nibble high with
    | .error e => .error e
    | .ok h =>
      match nibble low with
      | .error e => .error e
      | .ok l => decodePairs (done.push (h * 16 + l)) rest
  | _ => .ok done

def dropMark : List Char → List Char
  | '0' :: 'x' :: rest => rest
  | cs => cs

/-- The bytes of a text, white space around it and one leading `0x` apart. -/
def decode (text : String) : Except Fault (List UInt8) :=
  let digits := (String.ofList (dropMark (Text.trim text.toList))).toUTF8.toList
  if digits.length % 2 ≠ 0 then .error (.oddLength digits.length)
  else (decodePairs #[] digits).map Array.toList

def lastToken (text : String) : Option String :=
  match ((text.toList.reverse.dropWhile (!isDigit ·)).takeWhile isDigit).reverse with
  | [] => none
  | token => some (String.ofList token)

end ImageLinker.Hex
