/-!
Texts as a shell sees them: a shell knows bytes only, so a character here stands for the byte with
its number.
-/
namespace ImageLinker.Unix.Text

def ofBytes (bytes : List UInt8) : String :=
  String.ofList (bytes.map fun b => Char.ofNat b.toNat)

def toBytes (text : String) : List UInt8 := text.toList.map fun c => UInt8.ofNat c.toNat

def encode (text : String) : String := ofBytes text.toUTF8.toList

def decode (text : String) : String :=
  (String.fromUTF8? ⟨(toBytes text).toArray⟩).getD text

def isSpace (c : Char) : Bool := c == ' ' || (9 ≤ c.toNat && c.toNat ≤ 13)

/-- The lines of a text. A line feed at the end ends the last line. -/
def linesFrom (line : List Char) : List Char → List String
  | [] => if line.isEmpty then [] else [String.ofList line.reverse]
  | '\n' :: rest => String.ofList line.reverse :: linesFrom [] rest
  | c :: rest => linesFrom (c :: line) rest

def lines (text : String) : List String := linesFrom [] text.toList

def dropFinalBreaks (text : String) : String :=
  String.ofList (text.toList.reverse.dropWhile (· == '\n')).reverse

def decimal? (digits : List Char) : Option Nat :=
  if digits.isEmpty || digits.any (!·.isDigit) then none
  else some (digits.foldl (fun n c => 10 * n + (c.toNat - 48)) 0)

/-- A decimal number with a sign or none, and blanks around it. -/
def integer? (text : String) : Option Int :=
  let chars := text.toList.dropWhile isSpace
  let chars := (chars.reverse.dropWhile isSpace).reverse
  match chars with
  | '-' :: digits => (decimal? digits).map fun n => -(n : Int)
  | '+' :: digits => (decimal? digits).map Int.ofNat
  | digits => (decimal? digits).map Int.ofNat

def digitValue? (c : Char) : Option Nat :=
  if c.isDigit then some (c.toNat - 48)
  else if 'a' ≤ c ∧ c ≤ 'f' then some (c.toNat - 87)
  else if 'A' ≤ c ∧ c ≤ 'F' then some (c.toNat - 55)
  else none

/-- The number of at most `limit` digits in a radix at the start, and what follows; none without a
digit. -/
def numberPrefix (radix : Nat) : (limit : Nat) → (value : Option Nat) → List Char →
    Option Nat × List Char
  | 0, value, cs => (value, cs)
  | _ + 1, value, [] => (value, [])
  | limit + 1, value, c :: cs =>
    match digitValue? c with
    | some d =>
      if d < radix then numberPrefix radix limit (some (radix * value.getD 0 + d)) cs
      else (value, c :: cs)
    | none => (value, c :: cs)

/-- The number at the start of a text, of one digit at least, and what is behind it: to the base 16
behind `0x`, 2 behind `0b`, 8 behind another zero and 10 otherwise. -/
def radixPrefix (cs : List Char) : Option Nat × List Char :=
  let plain := fun (_ : Unit) => match cs with
    | '0' :: rest => numberPrefix 8 rest.length (some 0) rest
    | _ => numberPrefix 10 cs.length none cs
  let marked := fun (radix : Nat) (rest : List Char) =>
    match numberPrefix radix rest.length none rest with
    | (some n, left) => (some n, left)
    | (none, _) => plain ()
  match cs with
  | '0' :: 'x' :: rest | '0' :: 'X' :: rest => marked 16 rest
  | '0' :: 'b' :: rest | '0' :: 'B' :: rest => marked 2 rest
  | _ => plain ()

end ImageLinker.Unix.Text
