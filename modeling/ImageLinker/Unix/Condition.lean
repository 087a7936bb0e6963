import ImageLinker.Files.Tree
import ImageLinker.Unix.Text

/-! Conditions on texts, numbers and files. -/
namespace ImageLinker.Unix.Condition

abbrev Check (α : Type) := Except String α

def fileSigns : List String :=
  ["-r", "-w", "-x", "-e", "-f", "-d", "-c", "-b", "-p", "-u", "-g", "-k", "-s", "-t", "-h", "-O",
    "-G", "-L", "-S"]

def isUnary (sign : String) : Bool := ["-z", "-n"].contains sign || fileSigns.contains sign

def isBinary (sign : String) : Bool :=
  ["=", "!=", "<", ">", "-eq", "-ne", "-ge", "-gt", "-le", "-lt", "-nt", "-ot", "-ef"].contains sign

/-- A whole number with blanks around it; none if it has more bits than a word. -/
def integer? (text : String) : Option Int :=
  (Text.integer? text).filter fun n => Int.bmod n UInt64.size = n

def integer (text : String) : Check Int :=
  match integer? text with
  | some n => .ok n
  | none => .error ("Illegal number: " ++ text)

def isDevice (path : String) : Bool := ["/dev/null", "/dev/zero"].contains path

def isLink (path : String) : Bool := ["/bin", "/bin/sh", "/usr/bin/sh"].contains path

def ofFile (files : Files.Tree) (sign path : String) : Bool :=
  match files.lookup (Text.decode path), sign with
  | .error _, _ => false
  | .ok _, "-h" | .ok _, "-L" => isLink path
  | .ok _, "-e" | .ok _, "-r" | .ok _, "-w" | .ok _, "-O" | .ok _, "-G" => true
  | .ok _, "-c" => isDevice path
  | .ok (.file ..), "-f" => !isDevice path
  | .ok .directory, "-d" => true
  | .ok (.file bytes _), "-s" => !bytes.isEmpty
  | .ok .directory, "-s" => true
  | .ok (.file _ executable), "-x" => executable
  | .ok .directory, "-x" => true
  | _, _ => false

def unary (files : Files.Tree) (sign text : String) : Check Bool := do
  match sign with
  | "-z" => return text.isEmpty
  | "-n" => return !text.isEmpty
  | "-t" => do
    let _ ← integer text
    return false
  | _ => return ofFile files sign text

def isSame (files : Files.Tree) (a b : String) : Bool :=
  match files.resolve (Text.decode a), files.resolve (Text.decode b) with
  | .ok a, .ok b => a = b && (files.get? a).isSome
  | _, _ => false

def binary (files : Files.Tree) (a sign b : String) : Check Bool := do
  let compare (p : Int → Int → Bool) : Check Bool := do
    let m ← integer a
    return p m (← integer b)
  match sign with
  | "=" => return a == b
  | "!=" => return a != b
  | "<" => return a < b
  | ">" => return b < a
  | "-eq" => compare (· == ·)
  | "-ne" => compare (· != ·)
  | "-ge" => compare (· ≥ ·)
  | "-gt" => compare (· > ·)
  | "-le" => compare (· ≤ ·)
  | "-lt" => compare (· < ·)
  | "-ef" => return isSame files a b
  | "-nt" => return files.isFile (Text.decode a) && !files.isFile (Text.decode b)
  | _ => return files.isFile (Text.decode b) && !files.isFile (Text.decode a)

inductive Token where
  | ending
  | operand
  | unary
  | binary
  | negation
  | conjunction
  | disjunction
  | opening
  | closing
  deriving DecidableEq, Repr, Inhabited

/-- What the first text is taken for. A sign in front of nothing, or of a sign between two texts, is
a text itself. -/
def token : List String → Token
  | [] => .ending
  | s :: rest =>
    let isOperand := match rest with
      | [] => true
      | [_] => false
      | next :: _ => isBinary next
    if isUnary s then (if isOperand then .operand else .unary)
    else if isBinary s then .binary
    else
      match s, rest with
      | "!", _ => .negation
      | "-a", _ => .conjunction
      | "-o", _ => .disjunction
      | "(", [] => .operand
      | "(", _ => .opening
      | ")", _ => .closing
      | _, _ => .operand

def complaint (sign text : String) : Check α :=
  .error (if sign.isEmpty then text else sign ++ ": " ++ text)

/-! Each of these reads on from the text that has been looked at, and leaves the last one it
used. -/

variable (files : Files.Tree)

mutual

def anyOf : (fuel : Nat) → Token → List String → Check (Bool × List String)
  | 0, _, ts => return (false, ts)
  | fuel + 1, t, ts => do
    let (a, ts) ← allOf fuel t ts
    if token (ts.drop 1) = .disjunction then
      let ts := ts.drop 2
      let (b, ts) ← anyOf fuel (token ts) ts
      return (a || b, ts)
    else return (a, ts)

def allOf : (fuel : Nat) → Token → List String → Check (Bool × List String)
  | 0, _, ts => return (false, ts)
  | fuel + 1, t, ts => do
    let (a, ts) ← negated fuel t ts
    if token (ts.drop 1) = .conjunction then
      let ts := ts.drop 2
      let (b, ts) ← allOf fuel (token ts) ts
      return (a && b, ts)
    else return (a, ts)

def negated : (fuel : Nat) → Token → List String → Check (Bool × List String)
  | 0, _, ts => return (false, ts)
  | fuel + 1, t, ts => do
    if t = .negation then
      let next := token (ts.drop 1)
      let (a, ts) ← negated fuel next (if next = .ending then ts else ts.drop 1)
      return (!a, ts)
    else single fuel t ts

def single : (fuel : Nat) → Token → List String → Check (Bool × List String)
  | 0, _, ts => return (false, ts)
  | fuel + 1, t, ts => do
    let first := ts.head?.getD ""
    match t with
    | .ending => return (false, ts)
    | .opening =>
      let inner := ts.drop 1
      if token inner = .closing then return (false, inner)
      let (a, ts) ← anyOf fuel (token inner) inner
      if token (ts.drop 1) != .closing then complaint "" "closing paren expected"
      return (a, ts.drop 1)
    | .unary =>
      match ts with
      | [] | [_] => complaint first "argument expected"
      | _ :: text :: _ => return (← unary files first text, ts.drop 1)
    | _ =>
      match ts with
      | a :: sign :: rest =>
        if token (sign :: rest) = .binary then
          match rest with
          | b :: _ => return (← binary files a sign b, ts.drop 2)
          | [] => complaint sign "argument expected"
        else return (!first.isEmpty, ts)
      | _ => return (!first.isEmpty, ts)

end

def whole (t : Token) (ts : List String) : Check Bool := do
  let (a, rest) ← anyOf files (4 * ts.length + 8) t ts
  match rest with
  | sign :: _ :: _ => complaint sign "unexpected operator"
  | _ => return a

/-- Whether a condition holds, or does not if it is negated. Three or four texts are looked at as a
whole first: further negations in front of them do not count. -/
def holds (isNegated : Bool) : (fuel : Nat) → List String → Check Bool
  | 0, _ => .ok false
  | fuel + 1, ts => do
    let parenthesized := ts.head? == some "(" && ts.getLast? == some ")"
    let isComparison := ts.length == 3 && isBinary (ts[1]?.getD "")
    let isShort := ts.length == 3 || ts.length == 4
    if ts.isEmpty then return isNegated
    if isComparison then return (← whole files .operand ts) != isNegated
    if isShort && parenthesized then
      let inner := (ts.drop 1).dropLast
      return (← whole files (token inner) inner) != isNegated
    if isShort && ts.head? == some "!" then holds true fuel (ts.drop 1)
    else return (← whole files (token ts) ts) != isNegated

end ImageLinker.Unix.Condition
