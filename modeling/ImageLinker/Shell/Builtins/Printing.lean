import ImageLinker.Shell.Builtins.Basic
import ImageLinker.Unix.Format

/-! Commands that print. -/
namespace ImageLinker.Shell.Builtins

open Unix Run

/-- The texts of arguments with blanks between them, up to one that ends all printing. -/
def echoTexts (newline : Bool) : List String → String
  | [] => if newline then "\n" else ""
  | a :: rest =>
    match Escape.expandText .argument a with
    | (text, some _) => text
    | (text, none) => text ++ (if rest.isEmpty then "" else " ") ++ echoTexts newline rest

def echo : Builtin := fun arguments => do
  match arguments with
  | "-n" :: rest => print (echoTexts false rest)
  | all => print (echoTexts true all)
  return 0

def numberComplaint (text : String) : NumberFault → String
  | .noNumber => text ++ ": expected numeric value"
  | .moreBehind => text ++ ": not completely converted"
  | .outOfRange => text ++ ": Numerical result out of range"

def printf : Builtin := fun arguments => do
  let (_, operands) ← options "" arguments
  match operands with
  | [] => fail "usage: printf format [arg ...]"
  | format :: arguments =>
    let p := Printing.ofFormat .format 53 format arguments
    let statuses ← p.faults.reverse.mapM fun (_, fault) => do
      match fault with
      | .moreCharacters _ | .moreArguments _ | .escape _ | .size .. => return 1
      | .number text fault =>
        warn (numberComplaint text fault)
        return 1
      | .directive text =>
        warn (text ++ ": invalid directive")
        return 2
      | .unfinished _ =>
        warn "missing format character"
        return 2
    print p.text
    return statuses.foldl max 0

end ImageLinker.Shell.Builtins
