/-!
Sets of characters in brackets, as patterns and expressions write them. A character stands for a
byte, and bytes from 128 on come before all others.
-/
namespace ImageLinker.Shell

/-- Ranges of characters with both ends, or all characters outside of them. -/
structure CharacterSet where
  negated : Bool
  ranges : List (Char × Char)
  deriving DecidableEq, Repr, Inhabited

namespace CharacterSet

def contains (s : CharacterSet) (c : Char) : Bool :=
  s.ranges.any (fun (first, last) => first ≤ c && c ≤ last) != s.negated

def ofClass (name : String) : Option (List (Char × Char)) :=
  match name with
  | "alpha" => some [('a', 'z'), ('A', 'Z')]
  | "digit" => some [('0', '9')]
  | "alnum" => some [('a', 'z'), ('A', 'Z'), ('0', '9')]
  | "upper" => some [('A', 'Z')]
  | "lower" => some [('a', 'z')]
  | "xdigit" => some [('0', '9'), ('a', 'f'), ('A', 'F')]
  | "space" => some [('\t', '\x0d'), (' ', ' ')]
  | "blank" => some [('\t', '\t'), (' ', ' ')]
  | "punct" => some [('!', '/'), (':', '@'), ('[', '\x60'), ('\x7b', '~')]
  | "print" => some [(' ', '~')]
  | "graph" => some [('!', '~')]
  | "cntrl" => some [('\x00', '\x1f'), ('\x7f', '\x7f')]
  | _ => none

def readClass (cs : List Char) : Option (List (Char × Char) × List Char) := do
  let ':' :: rest := cs | none
  let name := rest.takeWhile Char.isAlpha
  let ':' :: ']' :: rest := rest.drop name.length | none
  return (← ofClass (String.ofList name), rest)

/-- The ranges between two characters; a byte from 128 on is a negative number. -/
def between (first last : Char) : List (Char × Char) :=
  let half := Char.ofNat 127
  let upper := Char.ofNat 128
  let top := Char.ofNat 255
  if first ≤ half && last ≤ half || half < first && half < last then [(first, last)]
  else if half < first then [(first, top), ('\x00', last)]
  else [(upper, '\x00')]

end CharacterSet

end ImageLinker.Shell
