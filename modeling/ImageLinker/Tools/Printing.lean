import ImageLinker.Tools.Basic
import ImageLinker.Unix.Format

/-! Tools that print what they are given. -/
namespace ImageLinker.Tools

open Unix Action

def echoLetters? (argument : String) : Option (List Char) :=
  match argument.toList with
  | '-' :: c :: cs => if (c :: cs).all "neE".toList.contains then some (c :: cs) else none
  | _ => none

/-- Texts with blanks between them, up to one that ends all printing. -/
def expandedTexts (ending : String) : List String → String
  | [] => ending
  | a :: rest =>
    match Escape.expandText .wideArgument a with
    | (text, some _) => text
    | (text, none) => text ++ (if rest.isEmpty then "" else " ") ++ expandedTexts ending rest

/-- Prints its arguments. In a strict environment backslashes always mean something, and there are
no options unless `-n` is the first. -/
def echo : Program := fun _ c => do
  let isStrict := (c.valueOf? strictVariable).isSome
  let isOption := fun a => (echoLetters? a).isSome
  let takesOptions := !isStrict || c.arguments.head? == some "-n"
  let options := if takesOptions then c.arguments.takeWhile isOption else []
  let letters := options.flatMap fun a => (echoLetters? a).getD []
  let texts := c.arguments.drop options.length
  let ending := if letters.contains 'n' then "" else "\n"
  let expands := isStrict || (letters.reverse.find? (· != 'n')) == some 'e'
  print c.name (if expands then expandedTexts ending texts else " ".intercalate texts ++ ending)
  return 0

def numberComplaint (text : String) : NumberFault → String
  | .noNumber => Quoting.literal text ++ ": expected a numeric value"
  | .moreBehind => Quoting.literal text ++ ": value not completely converted"
  | .outOfRange => Quoting.literal text ++ ": Numerical result out of range"

def formatComplaint : FormatFault → String
  | .number text fault => numberComplaint text fault
  | .size what text => "invalid " ++ what ++ ": " ++ Quoting.literal text
  | .escape .noDigits => "missing hexadecimal number in escape"
  | .escape (.noCharacter written) => "invalid universal character name " ++ written
  | .moreCharacters text =>
    "warning: " ++ text ++ ": character(s) following character constant have been ignored"
  | .moreArguments text =>
    "warning: ignoring excess arguments, starting with " ++ Quoting.literal text
  | .directive text | .unfinished text => text ++ ": invalid conversion specification"

def isWarning : FormatFault → Bool
  | .moreCharacters _ | .moreArguments _ => true
  | _ => false

def printWithFaults (tool : String) : (printed : Nat) → List Char → List (Nat × FormatFault) →
    Action Unit
  | _, cs, [] => print tool (String.ofList cs)
  | printed, cs, (place, fault) :: rest => do
    print tool (String.ofList (cs.take (place - printed)))
    complain tool (formatComplaint fault)
    printWithFaults tool place (cs.drop (place - printed)) rest

def printf : Program := fun _ c => do
  match (if c.arguments.head? = some "--" then c.arguments.drop 1 else c.arguments) with
  | [] =>
    complain c.name ("missing operand" ++ advice c.name)
    return 1
  | format :: arguments =>
    let p := Printing.ofFormat .richFormat 64 format arguments
    let isStrict := (c.valueOf? strictVariable).isSome
    let faults := p.faults.filter fun (_, fault) => match fault with
      | .moreCharacters _ => !isStrict
      | _ => true
    printWithFaults c.name 0 p.output.reverse faults.reverse
    return if p.faults.all fun (_, fault) => isWarning fault then 0 else 1

def yes : Program := fun _ c => do
  let line := " ".intercalate (if c.arguments.isEmpty then ["y"] else c.arguments) ++ "\n"
  let block := String.join (List.replicate (Output.limit / line.length + 1) line)
  again (print c.name block) manyPieces
  return 0

end ImageLinker.Tools
