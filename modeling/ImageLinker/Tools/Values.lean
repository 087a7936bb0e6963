import ImageLinker.Tools.Basic
import ImageLinker.Tools.Regex
import ImageLinker.Unix.Condition

/-! Tools that work on their arguments: conditions, expressions, numbers and names. -/
namespace ImageLinker.Tools

open Unix Action

def testWith (c : Call) (arguments : List String) : Action Nat := do
  match Condition.holds (← files) false (arguments.length + 1) arguments with
  | .ok holds => return if holds then 0 else 1
  | .error complaint =>
    complain c.name complaint
    return 2

def test : Program := fun _ c => testWith c c.arguments

def bracket : Program := fun _ c => do
  if c.arguments.getLast? = some "]" then testWith c c.arguments.dropLast
  else
    complain c.name ("missing " ++ Quoting.literal "]")
    return 2

namespace Expr

inductive Fault where
  | wording (text : String)
  | nonInteger
  | divisionByZero
  deriving DecidableEq, Repr, Inhabited

def Fault.message : Fault → String
  | .wording text => text
  | .nonInteger => "non-integer argument"
  | .divisionByZero => "division by zero"

abbrev Value := Except Fault (String × List String)

/-- A whole number; no blanks may stand around it. -/
def integer? (text : String) : Option Int :=
  if text.toList.any Text.isSpace || text.startsWith "+" then none else Text.integer? text

def isNull (text : String) : Bool := text.isEmpty || integer? text == some 0

def ofBool (b : Bool) : String := if b then "1" else "0"

def matched (text pattern : String) : Except Fault String :=
  match Regex.read { lenient := true } pattern with
  | .error fault => .error (.wording fault.message)
  | .ok (regex, groups) =>
    let f : Regex.Finder := { regex, groups }
    let start := Regex.Place.ofText text
    let empty := if groups = 0 then "0" else ""
    match f.at? start with
    | none => .ok empty
    | some finish =>
      let m := f.withGroups ⟨start, finish⟩
      .ok (if groups = 0 then toString m.text.length
        else String.ofList ((m.finish.groups.lookup 1).getD []))

def compared (sign a b : String) : Option Bool :=
  let order := match integer? a, integer? b with
    | some m, some n => compare m n
    | _, _ => compare a b
  match sign with
  | "<" => some (order == .lt)
  | "<=" => some (order != .gt)
  | "=" | "==" => some (order == .eq)
  | "!=" => some (order != .eq)
  | ">=" => some (order != .lt)
  | ">" => some (order == .gt)
  | _ => none

def combine (sign a b : String) : Except Fault String := do
  match sign with
  | "|" => return if !isNull a then a else if isNull b then "0" else b
  | "&" => return if isNull a || isNull b then "0" else a
  | ":" => matched a b
  | sign =>
    match compared sign a b with
    | some holds => return ofBool holds
    | none =>
      match integer? a, integer? b with
      | some m, some n =>
        if (sign == "/" || sign == "%") && n == 0 then throw .divisionByZero
        return toString (match sign with
          | "+" => m + n
          | "-" => m - n
          | "*" => m * n
          | "/" => Int.tdiv m n
          | _ => Int.tmod m n)
      | _, _ => throw .nonInteger

/-- The signs between operands; those that come later bind closer. -/
def levels : List (List String) :=
  [["|"], ["&"], ["<", "<=", "=", "==", "!=", ">=", ">"], ["+", "-"], ["*", "/", "%"], [":"]]

mutual

def operands : (fuel : Nat) → (levels : List (List String)) → List String → Value
  | 0, _, _ => .error (.wording "syntax error")
  | fuel + 1, [], ts => primary fuel ts
  | fuel + 1, signs :: closer, ts => do
    let (first, rest) ← operands fuel closer ts
    more fuel signs closer first rest
termination_by structural fuel => fuel

def more : (fuel : Nat) → (signs : List String) → (closer : List (List String)) → (first : String) →
    List String → Value
  | 0, _, _, _, _ => .error (.wording "syntax error")
  | fuel + 1, signs, closer, first, ts => do
    match ts with
    | sign :: rest =>
      if signs.contains sign then
        if rest.isEmpty then
          throw (.wording ("syntax error: missing argument after " ++ Quoting.literal sign))
        let (second, rest) ← operands fuel closer rest
        more fuel signs closer (← combine sign first second) rest
      else return (first, ts)
    | [] => return (first, [])
termination_by structural fuel => fuel

def primary : (fuel : Nat) → List String → Value
  | 0, _ => .error (.wording "syntax error")
  | fuel + 1, ts => do
    match ts with
    | [] => throw (.wording "syntax error: missing argument")
    | "(" :: rest =>
      let (value, rest) ← operands fuel levels rest
      match rest with
      | ")" :: rest => return (value, rest)
      | _ => throw (.wording "syntax error: expecting ')'")
    | "+" :: a :: rest => return (a, rest)
    | "length" :: a :: rest => return (toString a.length, rest)
    | "match" :: a :: b :: rest => return (← matched a b, rest)
    | "index" :: a :: b :: rest =>
      let place := (a.toList.findIdx? b.toList.contains).map (· + 1)
      return (toString (place.getD 0), rest)
    | "substr" :: a :: b :: c :: rest =>
      match integer? b, integer? c with
      | some start, some count =>
        let text := if start < 1 || count < 1 then "" else
          String.ofList ((a.toList.drop (start.toNat - 1)).take count.toNat)
        return (text, rest)
      | _, _ => return ("", rest)
    | a :: rest => return (a, rest)
termination_by structural fuel => fuel

end

def eval (ts : List String) : Except Fault String := do
  let (value, rest) ← operands (16 * ts.length + 16) levels ts
  match rest with
  | [] => return value
  | t :: _ => throw (.wording ("syntax error: unexpected argument " ++ Quoting.literal t))

end Expr

def expr : Program := fun _ c => do
  match c.arguments with
  | [] =>
    complain c.name ("missing operand" ++ advice c.name)
    return 2
  | arguments =>
    match Expr.eval (if arguments.head? == some "--" then arguments.drop 1 else arguments) with
    | .ok value =>
      print c.name (value ++ "\n")
      return if Expr.isNull value then 1 else 0
    | .error fault =>
      complain c.name fault.message
      return 2

/-- A number with digits behind a point: all its digits together, and how many stand behind it. -/
def decimalParts? (text : String) : Option (Int × Nat) := do
  let (negative, cs) := match text.toList with
    | '-' :: rest => (true, rest)
    | '+' :: rest => (false, rest)
    | rest => (false, rest)
  let whole := cs.takeWhile Char.isDigit
  let fraction ← match cs.drop whole.length with
    | [] => some []
    | '.' :: rest => if rest.all Char.isDigit then some rest else none
    | _ => none
  let n ← Text.decimal? (whole ++ fraction)
  return (if negative then -n else n, fraction.length)

/-- A number with so many digits behind its point. -/
def decimalText (places : Nat) (n : Int) : String :=
  let digits := Nat.toDigits 10 n.natAbs
  let digits := List.replicate (places + 1 - digits.length) '0' ++ digits
  let whole := digits.take (digits.length - places)
  let fraction := digits.drop whole.length
  (if n < 0 then "-" else "") ++ String.ofList whole ++
    (if fraction.isEmpty then "" else "." ++ String.ofList fraction)

def seq : Program := fun _ c => do
  -- A negative number is no option.
  let isNumber := fun (a : String) => (decimalParts? a).isSome
  let rec split : List String → List String × List String
    | "-s" :: s :: rest => let (o, n) := split rest; ("-s" :: s :: o, n)
    | "-f" :: s :: rest => let (o, n) := split rest; ("-f" :: s :: o, n)
    | a :: rest =>
      if a.startsWith "-" && !isNumber a then let (o, n) := split rest; (a :: o, n)
      else ([], a :: rest)
    | [] => ([], [])
  let (options, numbers) := split c.arguments
  let kinds : List OptionKind :=
    [⟨'s', "separator", .text⟩, ⟨'w', "equal-width", .nothing⟩, ⟨'f', "format", .text⟩]
  match Options.read kinds false options with
  | .error text =>
    complain c.name (text ++ advice c.name)
    return 1
  | .ok o =>
    match numbers.find? (!isNumber ·), numbers.filterMap decimalParts? with
    | some wrong, _ =>
      complain c.name
        ("invalid floating point argument: " ++ Quoting.literal wrong ++ advice c.name)
      return 1
    | none, parts =>
      let range := match parts with
        | [last] => some ((1, 0), (1, 0), last)
        | [first, last] => some (first, (1, 0), last)
        | [first, step, last] => some (first, step, last)
        | _ => none
      match range with
      | none =>
        let text := match numbers[3]? with
          | some extra => "extra operand " ++ Quoting.literal extra
          | none => "missing operand"
        complain c.name (text ++ advice c.name)
        return 1
      | some (first, step, last) =>
        let scale := max first.2 (max step.2 last.2)
        let scaled := fun (x : Int × Nat) => x.1 * Int.pow 10 (scale - x.2)
        let places := max first.2 step.2
        if scaled step = 0 then
          complain c.name
            ("invalid Zero increment value: " ++ Quoting.literal (numbers[1]?.getD "") ++
              advice c.name)
          return 1
        let count := ((scaled last - scaled first) / scaled step + 1).toNat
        let texts := (List.range count).map fun (i : Nat) =>
          let n := scaled first + scaled step * (i : Int)
          decimalText places (n / Int.pow 10 (scale - places))
        let width := (texts.map (·.length)).foldl max 0
        let padded := fun (text : String) =>
          let negative := text.startsWith "-"
          let body := if negative then String.ofList (text.toList.drop 1) else text
          (if negative then "-" else "") ++
            String.ofList (List.replicate (width - text.length) '0') ++ body
        let texts := if o.has 'w' then texts.map padded else texts
        if !texts.isEmpty then
          print c.name (((o.value? 's').getD "\n").intercalate texts ++ "\n")
        return 0

def lastNameOf (path : String) : String :=
  let reversed := path.toList.reverse.dropWhile (· == '/')
  if reversed.isEmpty then (if path.isEmpty then "" else "/")
  else String.ofList (reversed.takeWhile (· != '/')).reverse

def withoutEnding (ending name : String) : String :=
  if name != ending && name.endsWith ending then
    String.ofList (name.toList.take (name.length - ending.length))
  else name

def basename : Program := fun _ c => do
  let kinds : List OptionKind :=
    [⟨'a', "multiple", .nothing⟩, ⟨'s', "suffix", .text⟩, ⟨'z', "zero", .nothing⟩]
  match Options.read kinds false c.arguments with
  | .error text =>
    complain c.name (text ++ advice c.name)
    return 1
  | .ok o =>
    let many := o.has 'a' || o.has 's'
    match o.operands with
    | [] =>
      complain c.name ("missing operand" ++ advice c.name)
      return 1
    | path :: rest =>
      if !many && 1 < rest.length then
        complain c.name ("extra operand " ++ Quoting.literal (rest[1]?.getD "") ++ advice c.name)
        return 1
      let ending := if many then (o.value? 's').getD "" else rest.head?.getD ""
      let names := if many then o.operands else [path]
      let lines := names.map fun name => withoutEnding ending (lastNameOf name) ++ "\n"
      print c.name (String.join lines)
      return 0

def directoryOf (path : String) : String :=
  let reversed := path.toList.reverse.dropWhile (· == '/')
  let directory := (reversed.dropWhile (· != '/')).dropWhile (· == '/')
  if !directory.isEmpty then String.ofList directory.reverse
  else if path.startsWith "/" then "/" else "."

def dirname : Program := withOptions [⟨'z', "zero", .nothing⟩] fun tool o => do
  if o.operands.isEmpty then
    complain tool ("missing operand" ++ advice tool)
    return 1
  print tool (String.join (o.operands.map fun path => directoryOf path ++ "\n"))
  return 0

end ImageLinker.Tools
