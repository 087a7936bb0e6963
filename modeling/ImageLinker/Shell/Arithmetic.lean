import ImageLinker.Shell.State

/-!
Arithmetic on whole numbers of 64 bits. An expression is evaluated while it is read, so a fault in
it does not undo the assignments in front of it.
-/
namespace ImageLinker.Shell.Arithmetic

open Unix Run

def wrap (n : Int) : Int := Int.bmod n UInt64.size

def bits (n : Int) : Nat := (n % UInt64.size).toNat

def ofBool (b : Bool) : Int := if b then 1 else 0

/-- The number that a text gives, with a sign or none and blanks around it; none if it gives none or
one that has more bits than a word. -/
def integer? (text : String) : Option Int :=
  let cs := text.toList.dropWhile Text.isSpace
  let (negative, cs) := match cs with
    | '-' :: rest => (true, rest)
    | '+' :: rest => (false, rest)
    | cs => (false, cs)
  let (value, rest) := Text.radixPrefix cs
  let n : Int := if negative then -(value.getD 0 : Nat) else (value.getD 0 : Nat)
  let isBlank := (text.toList.all Text.isSpace)
  if isBlank then some 0
  else if value.isSome && rest.all Text.isSpace && wrap n = n then some n
  else none

def valueOf (name : String) : Run Int := do
  let text := (← value? name).getD ""
  match integer? text with
  | some n => return n
  | none => fail ("Illegal number: " ++ text)

inductive Token where
  | number (n : Int)
  | name (text : String)
  | sign (text : String)
  | unknown
  deriving DecidableEq, Repr, Inhabited

def signs : List String :=
  ["<<=", ">>=", "<<", ">>", "<=", ">=", "==", "!=", "&&", "||", "+=", "-=", "*=", "/=", "%=", "&=",
    "|=", "^=", "+", "-", "*", "/", "%", "<", ">", "=", "!", "~", "&", "|", "^", "(", ")", "?", ":"]

def tokens : (fuel : Nat) → List Char → List Token
  | 0, _ => []
  | _ + 1, [] => []
  | fuel + 1, c :: rest =>
    if c == ' ' || c == '\t' || c == '\n' then tokens fuel rest
    else if c.isDigit then
      let (n, rest) := Text.radixPrefix (c :: rest)
      .number ((min (n.getD 0) largest : Nat) : Int) :: tokens fuel rest
    else if isNameStart c then
      let name := (c :: rest).takeWhile isNameRest
      .name (String.ofList name) :: tokens fuel ((c :: rest).drop name.length)
    else
      match signs.find? fun s => s.toList.isPrefixOf (c :: rest) with
      | some s => .sign s :: tokens fuel ((c :: rest).drop s.length)
      | none => [.unknown]

abbrev Eval (α : Type) := StateT (List Token) Run α

variable (text : String)

def fault (expected : String) : Eval α :=
  fail ("arithmetic expression: " ++ expected ++ ": \"" ++ text ++ "\"")

def sign? : Eval (Option String) := do
  match (← get).head? with
  | some (.sign s) => return some s
  | _ => return none

def advance (count : Nat := 1) : Eval Unit := modify (·.drop count)

/-- The result of a sign between two numbers. -/
def apply (sign : String) (a b : Int) : Eval Int := do
  let shift := Nat.pow 2 (b % 64).toNat
  match sign with
  | "+" => return wrap (a + b)
  | "-" => return wrap (a - b)
  | "*" => return wrap (a * b)
  | "/" | "%" =>
    if b = 0 then fault text "division by zero"
    if wrap (a.tdiv b) ≠ a.tdiv b then liftM (finish (.signalled 8) : Run Unit)
    return if sign = "/" then a.tdiv b else a.tmod b
  | "==" => return ofBool (a = b)
  | "!=" => return ofBool (a ≠ b)
  | "<" => return ofBool (a < b)
  | ">" => return ofBool (a > b)
  | "<=" => return ofBool (a ≤ b)
  | ">=" => return ofBool (a ≥ b)
  | "&" => return wrap (bits a &&& bits b : Nat)
  | "|" => return wrap (bits a ||| bits b : Nat)
  | "^" => return wrap (bits a ^^^ bits b : Nat)
  | "<<" => return wrap (a * shift)
  | _ => return a / shift

/-- The signs between two numbers, those that bind least first. -/
def levels : List (List String) :=
  [["|"], ["^"], ["&"], ["==", "!="], ["<=", ">=", "<", ">"], ["<<", ">>"], ["+", "-"],
    ["*", "/", "%"]]

def assigning : List String :=
  ["=", "+=", "-=", "*=", "/=", "%=", "&=", "|=", "^=", "<<=", ">>="]

/-! Where `idle` holds, an expression is only read. -/

mutual

def assignment (idle : Bool) : (fuel : Nat) → Eval Int
  | 0 => fault text "too deep"
  | fuel + 1 => do
    match ← get with
    | .name x :: .sign s :: _ =>
      if assigning.contains s then
        advance 2
        let b ← assignment idle fuel
        if idle then return b
        let result ← if s = "=" then pure b
          else apply text (String.ofList s.toList.dropLast) (← valueOf x) b
        assign x (toString result)
        return result
      else choice idle fuel
    | _ => choice idle fuel

def choice (idle : Bool) : (fuel : Nat) → Eval Int
  | 0 => fault text "too deep"
  | fuel + 1 => do
    let a ← disjunction idle fuel
    if (← sign?) = some "?" then
      advance
      let b ← assignment (idle || a = 0) fuel
      if (← sign?) != some ":" then fault text "expecting ':'"
      advance
      let c ← choice (idle || a ≠ 0) fuel
      return if a ≠ 0 then b else c
    else return a

def disjunction (idle : Bool) : (fuel : Nat) → Eval Int
  | 0 => fault text "too deep"
  | fuel + 1 => do
    let a ← conjunction idle fuel
    if (← sign?) = some "||" then
      advance
      let b ← disjunction (idle || a ≠ 0) fuel
      return ofBool (a ≠ 0 || b ≠ 0)
    else return a

def conjunction (idle : Bool) : (fuel : Nat) → Eval Int
  | 0 => fault text "too deep"
  | fuel + 1 => do
    let a ← binary idle 0 fuel
    if (← sign?) = some "&&" then
      advance
      let b ← conjunction (idle || a = 0) fuel
      return ofBool (a ≠ 0 && b ≠ 0)
    else return a

def binary (idle : Bool) (level : Nat) : (fuel : Nat) → Eval Int
  | 0 => fault text "too deep"
  | fuel + 1 => do
    if level < levels.length then
      let a ← binary idle (level + 1) fuel
      binaryFrom idle level a fuel
    else primary idle fuel

/-- Goes on behind a number: signs of one level bind to the left. -/
def binaryFrom (idle : Bool) (level : Nat) (a : Int) : (fuel : Nat) → Eval Int
  | 0 => fault text "too deep"
  | fuel + 1 => do
    match ← sign? with
    | some s =>
      if (levels[level]?.getD []).contains s then
        advance
        let b ← binary idle (level + 1) fuel
        binaryFrom idle level (← if idle then pure b else apply text s a b) fuel
      else return a
    | none => return a

def primary (idle : Bool) : (fuel : Nat) → Eval Int
  | 0 => fault text "too deep"
  | fuel + 1 => do
    match ← get with
    | .number n :: rest =>
      set rest
      return n
    | .name x :: rest =>
      set rest
      if idle then return 0
      valueOf x
    | .sign "(" :: rest =>
      set rest
      let n ← assignment idle fuel
      if (← sign?) != some ")" then fault text "expecting ')'"
      advance
      return n
    | .sign "+" :: rest =>
      set rest
      primary idle fuel
    | .sign "-" :: rest =>
      set rest
      return wrap (-(← primary idle fuel))
    | .sign "!" :: rest =>
      set rest
      return ofBool ((← primary idle fuel) = 0)
    | .sign "~" :: rest =>
      set rest
      return -(← primary idle fuel) - 1
    | _ => fault text "expecting primary"

end

def eval : Run Int := do
  let ts := tokens (text.length + 1) text.toList
  let (n, rest) ← (assignment text false (16 * ts.length + 32)).run ts
  if rest.isEmpty then return n
  let (n, _) ← (fault text "expecting EOF" : Eval Int).run rest
  return n

end ImageLinker.Shell.Arithmetic
