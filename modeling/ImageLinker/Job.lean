import ImageLinker.Error
import ImageLinker.Files.Temporary

/-! Work on files that can fail. What it did to the files before it failed stays done. -/
namespace ImageLinker

abbrev Work (ε α : Type) := ExceptT ε (StateM Files.Tree) α

abbrev Job := Work Failure

namespace Work

variable {ε α β : Type}

def ofResult (r : Except ε α) : Work ε α := fun files => (r, files)

/-- Does both pieces of work, whatever the first one's end; the first failure counts. -/
def both (first : Work ε α) (second : Work ε β) : Work ε (α × β) := fun files =>
  let (a, files) := first files
  let (b, files) := second files
  (a.bind fun a => b.map fun b => (a, b), files)

variable [Coe LinkError ε]

def fail (e : LinkError) : Work ε α := ofResult (.error e)

def ofExcept (r : Except LinkError α) : Work ε α := ofResult (r.mapError Coe.coe)

def readText (path : String) : Work ε String := fun files =>
  ((files.readText path).mapError fun fault => ↑(LinkError.io (.read path) fault), files)

/-- Lets work use a new source file in a directory, and removes it however the work ends. -/
def withSource (dir : String) (a : Files.Attempt) (source : List UInt8)
    (work : (path : String) → Work ε α) : Work ε α := fun files =>
  match files.createTemporary dir "tmp" ".yul" a with
  | .error fault => (.error ↑(LinkError.io (.createTemporary dir) fault), files)
  | .ok (path, place, files) =>
    match files.fill path place source a with
    | (.error fault, files) => (.error ↑(LinkError.io (.write path) fault), files.erase place)
    | (.ok (), files) =>
      let (result, files) := work path files
      (result, files.erase place)

end Work

end ImageLinker
