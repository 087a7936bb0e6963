import ImageLinker.Shell.Script

/-! The cursor in a script that is read, and what can be wrong with a script. -/
namespace ImageLinker.Shell

/-- The smallest parts of a script that mean something. -/
inductive Token where
  | ending
  | lineEnd
  | semicolon
  | background
  | conjunction
  | disjunction
  | pipe
  | opening
  | closing
  | branchEnd
  | keyword (text : String)
  | word (w : Word) (quoted : Bool)
  /-- A redirection without its target. Of a document it is told whether tabs are to be taken
  away. -/
  | redirection (descriptor : Nat) (kind : RedirectionKind) (stripTabs : Bool)
  deriving Inhabited

/-- Why a script cannot be read. -/
inductive SyntaxFault where
  | unexpected (found : String) (expected : Option String)
  | openQuote
  | openBrace
  | openArithmetic
  | openBackquote
  | loopVariable
  | functionName
  | descriptor
  | tooDeep
  deriving DecidableEq, Repr, Inhabited

namespace SyntaxFault

def message : SyntaxFault → String
  | .unexpected found none => found ++ " unexpected"
  | .unexpected found (some expected) => found ++ " unexpected (expecting " ++ expected ++ ")"
  | .openQuote => "Unterminated quoted string"
  | .openBrace => "Missing '\x7d'"
  | .openArithmetic => "Missing '))'"
  | .openBackquote => "EOF in backquote substitution"
  | .loopVariable => "Bad for loop variable"
  | .functionName => "Bad function name"
  | .descriptor => "Bad fd number"
  | .tooDeep => "too deep"

end SyntaxFault

/-- What the next token may be taken for. -/
structure Wanted where
  skipLines : Bool := false
  keywords : Bool := false
  aliases : Bool := false
  deriving DecidableEq, Repr, Inhabited

structure OpenAlias where
  name : String
  left : Nat
  /-- The text ends in a blank, so the word behind it may be an alias too. -/
  endsBlank : Bool
  deriving DecidableEq, Repr, Inhabited

structure Reader where
  rest : List Char
  line : Nat := 1
  linesTaken : Nat := 0
  aliases : List (String × String) := []
  openAliases : List OpenAlias := []
  kept : Option Token := none
  wanted : Wanted := {}
  deriving Inhabited

structure LocatedFault where
  line : Nat
  fault : SyntaxFault
  deriving DecidableEq, Repr, Inhabited

abbrev Read (α : Type) := StateT Reader (Except LocatedFault) α

namespace Read

def fail (fault : SyntaxFault) : Read α := do throw ⟨(← get).line, fault⟩

def peek : Read (Option Char) := return (← get).rest.head?

def peekAt (n : Nat) : Read (Option Char) := return (← get).rest[n]?

def advance (count : Nat := 1) : Read Unit := modify fun r =>
  let breaks := (r.rest.take count).count '\n'
  { r with
    rest := r.rest.drop count
    line := r.line + breaks + (if breaks = 0 then 0 else r.linesTaken)
    linesTaken := if breaks = 0 then r.linesTaken else 0 }

def accept (text : String) : Read Bool := do
  if text.toList.isPrefixOf (← get).rest then
    advance text.length
    return true
  else return false

def takeWhile (p : Char → Bool) : Read String := do
  let taken := (← get).rest.takeWhile p
  advance taken.length
  return String.ofList taken

def skipJoints : (fuel : Nat) → Read Unit
  | 0 => return
  | fuel + 1 => do if ← accept "\\\n" then skipJoints fuel

/-- Goes past a backslash at the end of a line and the end of the line. -/
def joints : Read Unit := do if ← accept "\\\n" then skipJoints ((← get).rest.length + 1)

/-- Goes past blanks, joined lines and a comment. -/
def skipBlanks : (fuel : Nat) → Read Unit
  | 0 => return
  | fuel + 1 => do
    let _ ← takeWhile fun c => c == ' ' || c == '\t'
    if ← accept "\\\n" then skipBlanks fuel
    else if (← peek) = some '#' then
      let _ ← takeWhile (· != '\n')

def blanks : Read Unit := do skipBlanks ((← get).rest.length + 1)

def apart (line : Nat) (text : String) (work : Read α) : Read α := do
  let outer ← get
  set { outer with rest := text.toList, line, kept := none, openAliases := [], linesTaken := 0 }
  let a ← work
  set outer
  return a

end Read

end ImageLinker.Shell
