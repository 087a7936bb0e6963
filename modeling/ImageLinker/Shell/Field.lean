import ImageLinker.Shell.Pattern

/-!
From expanded words to fields. An expanded word is a list of stretches, and only in those that came
from expansions without quotes do separators end a field.
-/
namespace ImageLinker.Shell

/-- What expanding a word gives, in order. -/
inductive Mark where
  | glyph (g : Glyph)
  /-- Quotes stood here, so the field is there even if it holds nothing else. -/
  | presence
  | boundary
  deriving DecidableEq, Repr, Inhabited

namespace Mark

def ofText (quoted : Bool) (text : String) : List Mark :=
  text.toList.map fun c => .glyph ⟨c, quoted⟩

def glyphs (marks : List Mark) : List Glyph :=
  marks.filterMap fun
    | .glyph g => some g
    | _ => none

def text (marks : List Mark) : String := Glyph.text (glyphs marks)

end Mark

/-- What ends a field in a stretch. -/
inductive Breaks where
  | none
  | separators
  | boundaries
  deriving DecidableEq, Repr, Inhabited

structure Stretch where
  marks : List Mark
  breaks : Breaks := .none
  deriving DecidableEq, Repr, Inhabited

abbrev Field := List Glyph

namespace Stretch

def allMarks (stretches : List Stretch) : List Mark := stretches.flatMap (·.marks)

def text (stretches : List Stretch) : String := Mark.text (allMarks stretches)

/-- Fields that are being split off. Lists are in reverse. -/
structure Splitting where
  separators : List Char
  done : List (List Mark) := []
  current : List Mark := []
  /-- How many fields may still be begun; the last of them takes all the rest. -/
  limit : Option Nat
  /-- Blanks ended the last field, so that a sign behind them does not end another. -/
  afterBlank : Bool := false
  trimmed : Option (List Mark) := none
  last : Breaks := .none
  deriving Inhabited

namespace Splitting

def blanks : List Char := [' ', '\t', '\n']

def add (s : Splitting) (m : Mark) : Splitting := { s with current := m :: s.current }

def finish (s : Splitting) : Splitting :=
  { s with done := s.current :: s.done, current := [] }

def stepInLast (s : Splitting) (m : Mark) (ends isBlank : Bool) : Splitting :=
  if isBlank then { s.add m with trimmed := s.trimmed.getD s.current }
  else
    let trimmed := if ends && s.afterBlank then s.trimmed else none
    { s.add m with trimmed, afterBlank := false }

def endField (s : Splitting) (m : Mark) (isBlank : Bool) : Splitting :=
  let s := if s.last = .boundaries then s else { s with afterBlank := isBlank }
  if s.current.isEmpty && s.afterBlank then { s with afterBlank := false }
  else
    match s.limit with
    | some 1 => { s.add m with limit := some 0, trimmed := some s.current }
    | some (n + 1) => { s.finish with limit := some n }
    | _ => s.finish

def isEnd (s : Splitting) : Breaks → Mark → Bool
  | .separators, .glyph g => !g.quoted && s.separators.contains g.char
  | .none, _ => false
  | _, m => m == .boundary

/-- Whether a mark is one end together with those beside it, given whether it ends a field. -/
def isBlank (ends : Bool) : Mark → Bool
  | .glyph g => ends && blanks.contains g.char
  | m => m == .boundary

def take (s : Splitting) (m : Mark) (ends isBlank : Bool) : Splitting :=
  if s.limit == some 0 then s.stepInLast m ends isBlank
  else if s.afterBlank then
    if isBlank then { s with current := [] }
    else if ends then { s with current := [], afterBlank := false }
    else { s with current := [m], afterBlank := false }
  else if ends then s.endField m isBlank
  else s.add m

def step (breaks : Breaks) (s : Splitting) (m : Mark) : Splitting :=
  s.take m (s.isEnd breaks m) (isBlank (s.isEnd breaks m) m)

def stretch (s : Splitting) (t : Stretch) : Splitting :=
  match t.breaks with
  | .none => { s with current := t.marks.reverse ++ s.current }
  | breaks =>
    let s := { s with afterBlank := false, last := if s.last = .boundaries then s.last else breaks }
    { t.marks.foldl (step breaks) s with last := breaks }

end Splitting

def split (separators : List Char) (limit : Option Nat) (stretches : List Stretch) :
    List (List Mark) :=
  let s := stretches.foldl Splitting.stretch { separators, limit }
  let rest := if s.last = .boundaries then s.current else s.trimmed.getD s.current
  let done := if rest.isEmpty && s.last != .boundaries then s.done else rest :: s.done
  done.reverse.map List.reverse

end Stretch

end ImageLinker.Shell
