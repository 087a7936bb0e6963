import ImageLinker.Unix.Text

/-! Backslashes in texts that are printed. -/
namespace ImageLinker.Unix.Escape

/-- Which backslashes mean something. -/
inductive Style where
  | format
  /-- In an argument: an octal number may have a zero in front as well. -/
  | argument
  | wideArgument
  /-- In a format, with quotes, numbers in hexadecimal and characters by number too. -/
  | richFormat
  | richArgument
  deriving DecidableEq, Repr, Inhabited

namespace Style

def isRich : Style → Bool
  | .richFormat | .richArgument => true
  | _ => false

def isArgument : Style → Bool
  | .format | .richFormat => false
  | _ => true

def stops : Style → Bool
  | .format => false
  | _ => true

def ofArguments (s : Style) : Style := if s.isRich then .richArgument else .argument

end Style

inductive Fault where
  | noDigits
  | noCharacter (written : String)
  deriving DecidableEq, Repr, Inhabited

def letter? : Char → Option Char
  | 'a' => some '\x07'
  | 'b' => some '\x08'
  | 'e' => some '\x1b'
  | 'f' => some '\x0c'
  | 'n' => some '\n'
  | 'r' => some '\r'
  | 't' => some '\t'
  | 'v' => some '\x0b'
  | '\\' => some '\\'
  | _ => none

def isOctal (c : Char) : Bool := '0' ≤ c && c ≤ '7'

def hexadecimal (upper : Bool) (places n : Nat) : String :=
  let ds := Nat.toDigits 16 n
  let ds := if upper then ds.map Char.toUpper else ds
  String.ofList (List.replicate (places - ds.length) '0' ++ ds)

/-- The character with a number of exactly so many digits behind a letter. Only those of one byte
can be printed; others stay numbers. -/
def character (letter : Char) (places : Nat) (cs : List Char) :
    Except Fault (List Char × List Char) :=
  let (value, rest) := Text.numberPrefix 16 places none cs
  if cs.length - rest.length < places then .error .noDigits
  else
    let n := value.getD 0
    if 0xd800 ≤ n && n ≤ 0xdfff then
      .error (.noCharacter ("\\" ++ String.singleton letter ++ hexadecimal false places n))
    else if n < 0x80 then .ok ([Char.ofNat n], rest)
    else if n < 0x10000 then .ok (("\\u" ++ hexadecimal true 4 n).toList, rest)
    else .ok (("\\U" ++ hexadecimal true 8 n).toList, rest)

/-- What a backslash stands for that is followed by the given characters, and what is left of
them. -/
def read (style : Style) (cs : List Char) : Except Fault (List Char × List Char) :=
  match cs with
  | [] => .ok (['\\'], [])
  | c :: rest =>
    match letter? c with
    | some x => .ok ([x], rest)
    | none =>
      if c == 'x' && (style.isRich || style == .wideArgument) then
        match Text.numberPrefix 16 2 none rest with
        | (some n, rest) => .ok ([Char.ofNat n], rest)
        | (none, _) => if style.isRich then .error .noDigits else .ok (['\\'], cs)
      else if style.isRich && c == '"' then .ok (['"'], rest)
      else if style.isRich && c == 'u' then character c 4 rest
      else if style.isRich && c == 'U' then character c 8 rest
      else if isOctal c then
        let digits := if style.isArgument && c == '0' && rest.head?.any isOctal then rest else cs
        let (value, left) := Text.numberPrefix 8 3 none digits
        .ok ([Char.ofNat (value.getD 0 % 256)], left)
      else .ok (['\\'], cs)

/-- Why printing ends in the middle of a text. -/
inductive Stop where
  | asked
  | fault (f : Fault)
  deriving DecidableEq, Repr, Inhabited

/-- A text with its backslashes resolved, in reverse behind what is done, and whether printing ends
with it. -/
def expand (style : Style) : (fuel : Nat) → (done : List Char) → List Char → String × Option Stop
  | 0, done, _ => (String.ofList done.reverse, none)
  | _ + 1, done, [] => (String.ofList done.reverse, none)
  | fuel + 1, done, '\\' :: rest =>
    if style.stops && rest.head? == some 'c' then (String.ofList done.reverse, some .asked)
    else
      match read style rest with
      | .ok (text, rest) => expand style fuel (text.reverse ++ done) rest
      | .error fault => (String.ofList done.reverse, some (.fault fault))
  | fuel + 1, done, c :: rest => expand style fuel (c :: done) rest

def expandText (style : Style) (text : String) : String × Option Stop :=
  expand style (text.length + 1) [] text.toList

end ImageLinker.Unix.Escape
