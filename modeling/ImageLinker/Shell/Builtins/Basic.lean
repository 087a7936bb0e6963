import ImageLinker.Shell.State

/-! What the commands of a shell itself have in common: options, and texts in quotes. -/
namespace ImageLinker.Shell

abbrev Builtin := List String → Run Int

/-- How a command of the shell itself is treated. -/
structure BuiltinKind where
  /-- A fault in it ends the script, and assignments in front of it stay. -/
  isSpecial : Bool := false
  /-- Arguments that look like assignments are expanded as such. -/
  takesValues : Bool := false
  deriving DecidableEq, Repr, Inhabited

namespace Builtins

open Run

/-- The commands that are done by the shell itself. -/
def kinds : List (String × BuiltinKind) :=
  let special := [".", ":", "break", "continue", "eval", "exec", "exit", "return", "set", "shift",
    "times", "trap", "unset"]
  let giving := ["export", "readonly", "local"]
  let plain := ["[", "alias", "bg", "cd", "chdir", "command", "echo", "false", "fg", "getopts",
    "hash", "jobs", "kill", "printf", "pwd", "read", "test", "true", "type", "ulimit", "umask",
    "unalias", "wait"]
  special.map (·, { isSpecial := true }) ++
    giving.map (·, { isSpecial := true, takesValues := true }) ++ plain.map (·, ({} : BuiltinKind))

def takesArgument? (letter : Char) : List Char → Option Bool
  | [] => none
  | c :: ':' :: rest => if c = letter then some true else takesArgument? letter rest
  | c :: rest => if c = letter then some false else takesArgument? letter rest

def optionsInWord (letters : List Char) : List Char → (rest : List String) →
    Run (List (Char × String) × List String)
  | [], rest => return ([], rest)
  | c :: cs, rest => do
    match takesArgument? c letters, cs, rest with
    | none, _, _ => fail s!"Illegal option -{c}"
    | some false, _, _ =>
      let (more, rest) ← optionsInWord letters cs rest
      return ((c, "") :: more, rest)
    | some true, [], a :: rest => return ([(c, a)], rest)
    | some true, [], [] => fail s!"No arg for -{c} option"
    | some true, cs, rest => return ([(c, String.ofList cs)], rest)

def optionsFrom (letters : List Char) : (fuel : Nat) → List String →
    Run (List (Char × String) × List String)
  | 0, arguments => return ([], arguments)
  | _ + 1, [] => return ([], [])
  | fuel + 1, a :: rest => do
    match a.toList with
    | ['-', '-'] => return ([], rest)
    | '-' :: c :: cs =>
      let (options, rest) ← optionsInWord letters (c :: cs) rest
      let (more, rest) ← optionsFrom letters fuel rest
      return (options ++ more, rest)
    | _ => return ([], a :: rest)

/-- The options in front of arguments, and the arguments behind them. A colon behind a letter says
that the option takes an argument. -/
def options (letters : String) (arguments : List String) :
    Run (List (Char × String) × List String) :=
  optionsFrom letters.toList (arguments.length + 1) arguments

/-- Single quotes in a text are put between double quotes. -/
def quoteFrom : (fuel : Nat) → List Char → List Char
  | 0, _ => []
  | fuel + 1, cs =>
    let plain := cs.takeWhile (· != '\'')
    let rest := cs.drop plain.length
    let quotes := rest.takeWhile (· == '\'')
    let behind := rest.drop quotes.length
    let shown := '\'' :: plain ++ ['\'']
    if quotes.isEmpty then shown
    else
      let shown := shown ++ ('"' :: quotes ++ ['"'])
      if behind.isEmpty then shown else shown ++ quoteFrom fuel behind

def quote (text : String) : String := String.ofList (quoteFrom (text.length + 1) text.toList)

end Builtins

end ImageLinker.Shell
