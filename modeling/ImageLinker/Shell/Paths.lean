import ImageLinker.Files.Tree
import ImageLinker.Shell.Field
import ImageLinker.Unix.Text

/-! Names of files that fit patterns. -/
namespace ImageLinker.Shell.Paths

open Unix

def isPattern (f : Field) : Bool :=
  f.any fun g => !g.quoted && (g.char == '*' || g.char == '?' || g.char == '[')

def splitSlashes : Field → List Field
  | [] => [[]]
  | g :: rest =>
    match splitSlashes rest with
    | first :: more => if g.char = '/' then [] :: first :: more else (g :: first) :: more
    | [] => [[g]]

/-- Names in a directory that fit a pattern. A point at their start has to be written. -/
def namesFitting (files : Files.Tree) (dir : String) (part : Field) : List String :=
  match files.resolve (if dir.isEmpty then "." else Text.decode dir) with
  | .error _ => []
  | .ok place =>
    let names := if files.get? place = some .directory then
      "." :: ".." :: (files.namesAt place).map Text.encode else []
    let part := Glyph.unescape part
    let shows := fun (n : String) => n.toList.head? != some '.' || part.head?.any (·.char == '.')
    names.filter fun n => shows n && (Pattern.make part).fits n

/-- Whether a part stands for names in a directory: a bracket has to be closed in it. -/
def isOpen : Field → Bool
  | [] => false
  | g :: rest =>
    g.isSign '*' || g.isSign '?' || (g.isSign '[' && (rest.drop 1).any (·.isSign ']')) ||
      isOpen rest

/-- Paths below a start that fit the parts of a pattern. -/
def fitting (files : Files.Tree) : (start : String) → List Field → List String
  | start, [] => [start]
  | start, part :: rest =>
    let literal := start ++ Glyph.text (Glyph.unescape part)
    match rest with
    | [] =>
      if isOpen part then (namesFitting files start part).map (start ++ ·)
      else if (files.lookup (Text.decode literal)).isOk then [literal] else []
    | _ :: _ =>
      if isOpen part then
        (namesFitting files start part).flatMap fun n => fitting files (start ++ n ++ "/") rest
      else fitting files (literal ++ "/") rest

def ofField (files : Files.Tree) (f : Field) : List String :=
  if !isPattern f then [Glyph.text f]
  else
    match fitting files "" (splitSlashes f) with
    | [] => [Glyph.text f]
    | paths => paths.mergeSort (· ≤ ·)

end ImageLinker.Shell.Paths
