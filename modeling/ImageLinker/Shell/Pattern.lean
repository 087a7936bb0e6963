import ImageLinker.Shell.CharacterSet

/-! Patterns for whole texts: `*`, `?` and sets in brackets. -/
namespace ImageLinker.Shell

/-- A character of a pattern; a quoted one stands for itself. -/
structure Glyph where
  char : Char
  quoted : Bool
  deriving DecidableEq, Repr, Inhabited

namespace Glyph

def text (glyphs : List Glyph) : String := String.ofList (glyphs.map (·.char))

def isSign (g : Glyph) (c : Char) : Bool := !g.quoted && g.char == c

/-- The glyphs of a pattern. A backslash takes the meaning of the character behind it. -/
def unescape : List Glyph → List Glyph
  | g :: h :: rest =>
    if g.isSign '\\' then ⟨h.char, true⟩ :: unescape rest else g :: unescape (h :: rest)
  | gs => gs

end Glyph

inductive PatternItem where
  | one (c : Char)
  | any
  | set (s : CharacterSet)
  | star
  deriving DecidableEq, Repr, Inhabited

abbrev Pattern := List PatternItem

namespace Pattern

def readClass (gs : List Glyph) : Option (List (Char × Char) × List Glyph) := do
  let name := gs.takeWhile (!·.quoted)
  let (ranges, rest) ← CharacterSet.readClass (name.map (·.char))
  return (ranges, gs.drop (name.length - rest.length))

/-- Reads the items of a set up to the closing bracket, which is an item itself if it comes first.
Quoted characters are items and nothing else. -/
def readItems : (fuel : Nat) → (first : Bool) → List (Char × Char) → List Glyph →
    Option (List (Char × Char) × List Glyph)
  | 0, _, _, _ => none
  | _ + 1, _, _, [] => none
  | fuel + 1, first, done, g :: rest =>
    if g.isSign ']' ∧ !first then some (done, rest)
    else
      match if g.isSign '[' then readClass rest else none with
      | some (ranges, rest) => readItems fuel false (ranges ++ done) rest
      | none =>
        match rest with
        | dash :: last :: more =>
          if dash.isSign '-' ∧ !last.isSign ']' then
            readItems fuel false (CharacterSet.between g.char last.char ++ done) more
          else readItems fuel false ((g.char, g.char) :: done) rest
        | _ => readItems fuel false ((g.char, g.char) :: done) rest

def readSet (gs : List Glyph) : Option (CharacterSet × List Glyph) :=
  let negated := (gs.head?).any (·.isSign '!')
  (readItems (gs.length + 1) true [] (if negated then gs.drop 1 else gs)).map fun (ranges, rest) =>
    (⟨negated, ranges⟩, rest)

def ofGlyphs : (fuel : Nat) → List Glyph → Pattern
  | 0, _ => []
  | _ + 1, [] => []
  | fuel + 1, g :: rest =>
    if g.quoted then .one g.char :: ofGlyphs fuel rest
    else
      match g.char with
      | '*' => .star :: ofGlyphs fuel rest
      | '?' => .any :: ofGlyphs fuel rest
      | '[' =>
        match readSet rest with
        | some (s, rest) => .set s :: ofGlyphs fuel rest
        | none => .one '[' :: ofGlyphs fuel rest
      | c => .one c :: ofGlyphs fuel rest

def make (glyphs : List Glyph) : Pattern :=
  ofGlyphs (glyphs.length + 1) (Glyph.unescape glyphs)

def matchesFrom : (fuel : Nat) → Pattern → List Char → Bool
  | 0, _, _ => false
  | _ + 1, [], cs => cs.isEmpty
  | fuel + 1, .star :: p, cs =>
    matchesFrom fuel p cs ||
      match cs with
      | [] => false
      | _ :: cs => matchesFrom fuel (.star :: p) cs
  | _ + 1, _ :: _, [] => false
  | fuel + 1, .one c :: p, x :: cs => c == x && matchesFrom fuel p cs
  | fuel + 1, .any :: p, _ :: cs => matchesFrom fuel p cs
  | fuel + 1, .set s :: p, x :: cs => s.contains x && matchesFrom fuel p cs

def fits (p : Pattern) (text : String) : Bool :=
  let cs := text.toList
  matchesFrom (p.length + cs.length + 1) p cs

end Pattern

end ImageLinker.Shell
