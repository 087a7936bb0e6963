import ImageLinker.Unix.Escape
import ImageLinker.Unix.Quoting
import ImageLinker.Unix.Real

/-! Formats: texts with fields that arguments are printed in. -/
namespace ImageLinker.Unix

structure Field where
  left : Bool := false
  zero : Bool := false
  plus : Bool := false
  space : Bool := false
  alternate : Bool := false
  width : Nat := 0
  precision : Option Nat := none
  deriving DecidableEq, Repr, Inhabited

namespace Field

def withFlag (f : Field) (sign : Char) : Field :=
  match sign with
  | '-' => { f with left := true }
  | '0' => { f with zero := true }
  | '+' => { f with plus := true }
  | ' ' => { f with space := true }
  | '#' => { f with alternate := true }
  | _ => f

def refusedBy : Char → List Char
  | '\'' | 'I' => "aAceEosxX".toList
  | '#' => "cdisu".toList
  | '0' => "cs".toList
  | _ => []

def largest : Nat := 16777216

def pad (f : Field) (zero : Bool) (sign body : String) : String :=
  let count := f.width - (sign.length + body.length)
  if f.left then sign ++ body ++ String.ofList (List.replicate count ' ')
  else if zero then sign ++ String.ofList (List.replicate count '0') ++ body
  else String.ofList (List.replicate count ' ') ++ sign ++ body

def text (f : Field) (s : String) : String :=
  f.pad false "" (match f.precision with
    | some n => String.ofList (s.toList.take n)
    | none => s)

def character (f : Field) (c : Char) : String := f.pad false "" (String.singleton c)

def digits (f : Field) (radix n : Nat) : List Char :=
  let ds := if n = 0 ∧ f.precision = some 0 then [] else Nat.toDigits radix n
  List.replicate (f.precision.getD 0 - ds.length) '0' ++ ds

def sign (f : Field) (negative : Bool) : String :=
  if negative then "-" else if f.plus then "+" else if f.space then " " else ""

def signed (f : Field) (n : Int) : String :=
  f.pad (f.zero && f.precision.isNone) (f.sign (n < 0)) (String.ofList (f.digits 10 n.natAbs))

/-- A number without sign; a negative one counts from the top of 64 bits. -/
def unsigned (f : Field) (radix : Nat) (upper : Bool) (n : Int) : String :=
  let value := (n % UInt64.size).toNat
  let ds := f.digits radix value
  let ds := if f.alternate && radix == 8 && ds.head? != some '0' then '0' :: ds else ds
  let mark := if f.alternate && radix == 16 && value != 0 then "0x" else ""
  let raise := fun (s : String) => if upper then s.toUpper else s
  f.pad (f.zero && f.precision.isNone) (raise mark) (raise (String.ofList ds))

/-- A number with a fraction, of which so many bits were kept, printed as a letter says. -/
def real (f : Field) (bits : Nat) (letter : Char) (r : Real) : String :=
  let raise := fun (s : String) => if letter.isUpper then s.toUpper else s
  match r with
  | .infinite negative => f.pad false (f.sign negative) (raise "inf")
  | .notANumber negative => f.pad false (f.sign negative) (raise "nan")
  | .finite negative num den =>
    let places := f.precision.getD 6
    let body := match letter.toLower with
      | 'f' => Real.fixed f.alternate places num den
      | 'e' => Real.scientific f.alternate places num den
      | 'a' => Real.hexadecimal bits f.alternate f.precision num den
      | _ => Real.general f.alternate places num den
    f.pad f.zero (f.sign negative) (raise (String.ofList body))

end Field

/-- What can be wrong with a number in an argument. -/
inductive NumberFault where
  | noNumber
  | moreBehind
  | outOfRange
  deriving DecidableEq, Repr, Inhabited

/-- The number between two bounds that an argument gives, and what is wrong with it. A quote stands
for the number of the character behind it. -/
def argumentNumber (least most : Int) (text : String) : Int × Option NumberFault :=
  match text.toList with
  | '\'' :: rest | '"' :: rest => ((rest.head?.map fun c => (c.toNat : Int)).getD 0, none)
  | all =>
    let cs := all.dropWhile Text.isSpace
    let (negative, cs) := match cs with
      | '-' :: rest => (true, rest)
      | '+' :: rest => (false, rest)
      | rest => (false, rest)
    let (value, rest) := Text.radixPrefix cs
    let n : Int := if negative then -(value.getD 0 : Nat) else (value.getD 0 : Nat)
    if value.isNone then (0, if all.isEmpty then none else some .noNumber)
    else
      let bounded := max least (min most n)
      let fault := if !rest.isEmpty then some .moreBehind
        else if bounded ≠ n then some .outOfRange else none
      (bounded, fault)

inductive FormatFault where
  | number (text : String) (fault : NumberFault)
  | moreCharacters (text : String)
  | moreArguments (text : String)
  | directive (text : String)
  | unfinished (text : String)
  | size (what text : String)
  | escape (fault : Escape.Fault)
  deriving DecidableEq, Repr, Inhabited

/-- What has been printed by a format so far. -/
structure Printing where
  style : Escape.Style
  bits : Nat
  output : List Char := []
  /-- What was wrong, the newest first, and how much had been printed by then. -/
  faults : List (Nat × FormatFault) := []
  arguments : List String
  used : Bool := false
  finished : Bool := false
  deriving DecidableEq, Repr, Inhabited

namespace Printing

def emit (p : Printing) (text : String) : Printing :=
  { p with output := text.toList.reverse ++ p.output }

def complain (p : Printing) (fault : FormatFault) : Printing :=
  { p with faults := (p.output.length, fault) :: p.faults }

def giveUp (p : Printing) (fault : FormatFault) : Printing :=
  { p.complain fault with finished := true }

def take (p : Printing) : Option String × Printing :=
  match p.arguments with
  | a :: rest => (some a, { p with arguments := rest, used := true })
  | [] => (none, { p with used := true })

/-- Tells of characters behind the one that a quote stands for, or of a quote alone. -/
def checkQuote (p : Printing) (text : String) : Printing :=
  if !p.style.isRich then p
  else
    match text.toList with
    | ['\''] | ['"'] => p.complain (.number text .noNumber)
    | '\'' :: _ :: c :: cs | '"' :: _ :: c :: cs =>
      p.complain (.moreCharacters (String.ofList (c :: cs)))
    | _ => p

def takeNumber (isSigned : Bool) (p : Printing) : Int × Printing :=
  match p.take with
  | (none, p) => (0, p)
  | (some a, p) =>
    let half : Int := UInt64.size / 2
    let most : Int := UInt64.size - 1
    let (n, fault) := if isSigned then argumentNumber (-half) (half - 1) a
      else argumentNumber (-most) most a
    match fault with
    | some fault => (n, p.complain (.number a fault))
    | none => (n, p.checkQuote a)

def takeReal (p : Printing) : Real × Printing :=
  match p.take with
  | (none, p) => (.finite false 0 1, p)
  | (some a, p) =>
    match a.toList with
    | '\'' :: rest | '"' :: rest =>
      (.finite false ((rest.head?.map Char.toNat).getD 0) 1, p.checkQuote a)
    | cs =>
      match Real.read p.bits cs with
      | some r =>
        if !r.rest.isEmpty then (r.value, p.complain (.number a .moreBehind))
        else if r.outOfRange then (r.value, p.complain (.number a .outOfRange))
        else (r.value, p)
      | none =>
        let p := if a.isEmpty then p else p.complain (.number a .noNumber)
        (.finite false 0 1, p)

def wrapped (n : Int) : Int := n.bmod UInt32.size

/-- A width or a precision: digits, or a star for an argument. -/
def size (p : Printing) (what : String) (cs : List Char) : Option Int × Printing × List Char :=
  match cs with
  | '*' :: rest =>
    let text := p.arguments.head?.getD ""
    let (n, p) := p.takeNumber true
    if p.style.isRich && n ≠ wrapped n then (none, p.giveUp (.size what text), rest)
    else (some (wrapped n), p, rest)
  | cs =>
    let (n, rest) := Text.numberPrefix 10 cs.length none cs
    (n.map Int.ofNat, p, rest)

/-- Prints an argument as a letter says. `shown` is how the field was written. -/
def directive (p : Printing) (f : Field) (shown : String) (letter : Char) : Printing :=
  match letter with
  | 's' =>
    let (a, p) := p.take
    p.emit (f.text (a.getD ""))
  | 'c' =>
    let (a, p) := p.take
    match (a.getD "").toList with
    | c :: _ => p.emit (f.character c)
    | [] => p.emit (f.character '\x00')
  | 'b' =>
    let (a, p) := p.take
    let (text, stop) := Escape.expandText p.style.ofArguments (a.getD "")
    let p := p.emit (f.text text)
    match stop with
    | none => p
    | some .asked => { p with finished := true }
    | some (.fault fault) => p.giveUp (.escape fault)
  | 'q' =>
    let (a, p) := p.take
    p.emit (Quoting.reusable (a.getD ""))
  | 'd' | 'i' =>
    let (n, p) := p.takeNumber true
    p.emit (f.signed n)
  | 'u' | 'o' | 'x' | 'X' =>
    let (n, p) := p.takeNumber false
    let radix := match letter with
      | 'u' => 10
      | 'o' => 8
      | _ => 16
    p.emit (f.unsigned radix (letter == 'X') n)
  | _ =>
    if "aAeEfFgG".toList.contains letter then
      let (r, p) := p.takeReal
      p.emit (f.real p.bits letter r)
    else p.giveUp (.directive shown)

/-- Whether a field may end with a letter. Texts with backslashes and texts to be quoted are printed
as they are, and only a rich format can quote. -/
def isAllowed (p : Printing) (refused : List Char) (isBare : Bool) (letter : Char) : Bool :=
  if !p.style.isRich then letter != 'q'
  else if letter == 'b' || letter == 'q' then isBare
  else !refused.contains letter

def field (p : Printing) (cs : List Char) : Printing × List Char :=
  let all := cs
  let signs := cs.takeWhile (if p.style.isRich then "-0+ #'I" else "-0+ #").toList.contains
  let f := signs.foldl Field.withFlag {}
  let (width, p, cs) := p.size "field width" (cs.drop signs.length)
  let f := { f with
    left := f.left || width.any (· < 0), width := min Field.largest (width.getD 0).natAbs }
  let hasPoint := cs.head? == some '.'
  let (precision, p, cs) := if hasPoint then p.size "precision" (cs.drop 1) else (none, p, cs)
  let places := precision.getD 0
  let f := { f with
    precision := if hasPoint && 0 ≤ places then some (min Field.largest places.toNat) else none }
  let cs := if p.style.isRich then cs.dropWhile "hlLjtz".toList.contains else cs
  let shown := "%" ++ String.ofList (all.take (all.length - cs.length + 1))
  let refused := signs.flatMap Field.refusedBy ++ (if hasPoint then ['c'] else [])
  if p.finished then (p, [])
  else
    match cs with
    | letter :: rest =>
      if p.isAllowed refused (shown.length == 2) letter then (p.directive f shown letter, rest)
      else (p.giveUp (.directive shown), rest)
    | [] => (p.giveUp (.unfinished shown), [])

def once : (fuel : Nat) → Printing → List Char → Printing
  | 0, p, _ => p
  | fuel + 1, p, cs =>
    if p.finished then p
    else
      match cs with
      | [] => p
      | '%' :: '%' :: rest => once fuel (p.emit "%") rest
      | '%' :: rest =>
        let (p, rest) := p.field rest
        once fuel p rest
      | '\\' :: rest =>
        if p.style.stops && rest.head? == some 'c' then { p with finished := true }
        else
          match Escape.read p.style rest with
          | .ok (text, rest) => once fuel { p with output := text.reverse ++ p.output } rest
          | .error fault => p.giveUp (.escape fault)
      | c :: rest => once fuel { p with output := c :: p.output } rest

def checkArguments (p : Printing) : Printing :=
  match p.arguments with
  | a :: _ => if p.style.isRich && !p.finished then p.complain (.moreArguments a) else p
  | [] => p

/-- Uses a format again as long as it takes arguments and some are left. -/
def run (format : List Char) : (fuel : Nat) → Printing → Printing
  | 0, p => p
  | fuel + 1, p =>
    let p := once (format.length + 1) { p with used := false } format
    if p.finished || !p.used || p.arguments.isEmpty then p.checkArguments else run format fuel p

def ofFormat (style : Escape.Style) (bits : Nat) (format : String) (arguments : List String) :
    Printing :=
  run format.toList (arguments.length + 1) { style, bits, arguments }

def text (p : Printing) : String := String.ofList p.output.reverse

end Printing

end ImageLinker.Unix
