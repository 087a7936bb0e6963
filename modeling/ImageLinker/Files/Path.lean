/-! Paths as texts: pieces between slashes, joining, and the directory a path lies in. -/
namespace ImageLinker.Files.Path

/-- The texts between slashes, the empty ones included. -/
def splitSlash : List Char → List (List Char)
  | [] => [[]]
  | c :: rest =>
    if c = '/' then [] :: splitSlash rest
    else
      match splitSlash rest with
      | [] => [[c]]
      | piece :: pieces => (c :: piece) :: pieces

def pieces (path : String) : List String := (splitSlash path.toList).map String.ofList

def isAbsolute (path : String) : Bool := path.toList.head? == some '/'

def join (base path : String) : String :=
  if isAbsolute path then path
  else if base.isEmpty || base.toList.getLast? == some '/' then base ++ path
  else base ++ "/" ++ path

def ofNames (names : List String) : String := "/" ++ "/".intercalate names

def isSlash (c : Char) : Bool := c == '/'

/-- Drops slashes at the end, and pieces `.` between slashes there. What is left of a path that
begins with a slash keeps it. -/
def dropIdleEnd : List Char → List Char
  | '.' :: '/' :: rest => dropIdleEnd ('/' :: rest)
  | ['/'] => ['/']
  | '/' :: rest => dropIdleEnd rest
  | reversed => reversed

/-- The path without its last piece, or none when there is no piece to drop. Slashes at the end do
not count, nor do pieces `.` that do not begin the path. -/
def parent? (path : String) : Option String :=
  let reversed := dropIdleEnd path.toList.reverse
  if reversed = [] ∨ reversed = ['/'] then none
  else some (String.ofList (dropIdleEnd (reversed.dropWhile (!isSlash ·))).reverse)

def dropTrailingSlashes (path : String) : String :=
  let kept := (path.toList.reverse.dropWhile isSlash).reverse
  if kept.isEmpty && isAbsolute path then "/" else String.ofList kept

end ImageLinker.Files.Path
