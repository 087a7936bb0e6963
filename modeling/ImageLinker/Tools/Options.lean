/-!
Options in front of and among the operands of a tool: letters after one dash, words after two. A
word may be cut short as long as it is clear which one is meant.
-/
namespace ImageLinker.Tools

inductive Takes where
  | nothing
  | text
  | textIfJoined
  deriving DecidableEq, Repr, Inhabited

/-- An option is known by a letter. One that has only a word for a name has a letter that nobody can
write. -/
structure OptionKind where
  letter : Char
  name : String := ""
  takes : Takes := .nothing
  deriving DecidableEq, Repr, Inhabited

def OptionKind.ofLetters : List Char → List OptionKind
  | c :: ':' :: rest => { letter := c, takes := .text } :: ofLetters rest
  | c :: rest => { letter := c } :: ofLetters rest
  | [] => []

structure Options where
  given : List (Char × String) := []
  operands : List String := []
  deriving DecidableEq, Repr, Inhabited

namespace Options

def has (o : Options) (letter : Char) : Bool := o.given.any (·.1 == letter)

def value? (o : Options) (letter : Char) : Option String :=
  (o.given.reverse.find? (·.1 == letter)).map (·.2)

def last? (o : Options) (letters : List Char) : Option Char :=
  (o.given.reverse.find? fun (c, _) => letters.contains c).map (·.1)

abbrev Parsed := Except String (List (Char × String) × List String)

/-- Reads letters in one word; `rest` stands behind the word. -/
def letters (kinds : List OptionKind) : List Char → (rest : List String) → Parsed
  | [], rest => .ok ([], rest)
  | c :: cs, rest =>
    match kinds.find? (·.letter == c) with
    | none => .error s!"invalid option -- '{c}'"
    | some k =>
      match k.takes, cs, rest with
      | .nothing, _, _ => do
        let (more, rest) ← letters kinds cs rest
        return ((c, "") :: more, rest)
      | .textIfJoined, _, _ => .ok ([(c, String.ofList cs)], rest)
      | .text, [], a :: rest => .ok ([(c, a)], rest)
      | .text, [], [] => .error s!"option requires an argument -- '{c}'"
      | .text, _, _ => .ok ([(c, String.ofList cs)], rest)

def word (kinds : List OptionKind) (text : List Char) (rest : List String) : Parsed :=
  let name := text.takeWhile (· != '=')
  let value := match text.drop name.length with
    | _ :: value => some (String.ofList value)
    | [] => none
  let shown := "'--" ++ String.ofList name ++ "'"
  let fitting := kinds.filter fun k => k.name != "" && name.isPrefixOf k.name.toList
  let chosen := match fitting.find? (·.name == String.ofList name) with
    | some k => some k
    | none => if fitting.length = 1 then fitting.head? else none
  match chosen with
  | none =>
    if fitting.isEmpty then .error ("unrecognized option " ++ shown)
    else .error ("option " ++ shown ++ " is ambiguous; possibilities:" ++
      String.join (fitting.map fun k => " '--" ++ k.name ++ "'"))
  | some k =>
    let own := "option '--" ++ k.name ++ "'"
    match k.takes, value, rest with
    | .nothing, some _, _ => .error (own ++ " doesn't allow an argument")
    | .nothing, none, _ => .ok ([(k.letter, "")], rest)
    | _, some value, _ => .ok ([(k.letter, value)], rest)
    | .textIfJoined, none, _ => .ok ([(k.letter, "")], rest)
    | .text, none, a :: rest => .ok ([(k.letter, a)], rest)
    | .text, none, [] => .error (own ++ " requires an argument")

/-- Reads options and operands. Options behind the first operand are read too unless that ends
them. -/
def readFrom (kinds : List OptionKind) (mixed : Bool) : (fuel : Nat) → List String →
    Except String Options
  | 0, _ => .ok {}
  | _ + 1, [] => .ok {}
  | fuel + 1, a :: rest => do
    let goOn := fun (parsed : List (Char × String) × List String) => do
      let o ← readFrom kinds mixed fuel parsed.2
      return { o with given := parsed.1 ++ o.given }
    match a.toList with
    | ['-', '-'] => return { operands := rest }
    | '-' :: '-' :: text => goOn (← word kinds text rest)
    | '-' :: c :: cs => goOn (← letters kinds (c :: cs) rest)
    | _ =>
      if mixed then
        let o ← readFrom kinds mixed fuel rest
        return { o with operands := a :: o.operands }
      else return { operands := a :: rest }

def read (kinds : List OptionKind) (mixed : Bool) (arguments : List String) :
    Except String Options :=
  readFrom kinds mixed (arguments.length + 1) arguments

end Options

end ImageLinker.Tools
