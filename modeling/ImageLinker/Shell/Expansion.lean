import ImageLinker.Shell.Arithmetic
import ImageLinker.Shell.Paths

/-!
Expanding words: parameters, output of commands and arithmetic take the place of what names them,
and the result is split into fields.
-/
namespace ImageLinker.Shell.Expansion

open Unix Run

def separators : Run (List Char) := return ((← value? "IFS").getD " \t\n").toList

/-- The home directory of a user who has one whatever the variables say. -/
def homeOf? : String → Option String
  | "root" => some "/root"
  | _ => none

/-- What a parameter stands for; none if it is not set. All parameters together have the first
separator between them where they are to be one word. Where they are to be fields something else is
between them, unless nothing tells what the separators are. -/
def valueOf (name : String) (full quoted : Bool) : Run (Option Stretch) := do
  let s ← get
  let one := fun (text : Option String) =>
    let breaks := if quoted then Breaks.none else .separators
    text.map fun text => Stretch.mk (Mark.ofText quoted text) breaks
  let all := fun (together : Bool) => do
    let first := (← separators).head?
    let between : List Mark := if together then (first.map fun c => .glyph ⟨c, quoted⟩).toList
      else [.boundary]
    let marks := (s.positional.map (Mark.ofText quoted)).intersperse between
    let breaks : Breaks := if !quoted then .separators
      else if together || s.positional.isEmpty then .none else .boundaries
    return some ⟨marks.flatten, breaks⟩
  match name with
  | "$" => return one (toString s.rootId)
  | "?" => return one (toString s.status)
  | "#" => return one (toString s.positional.length)
  | "!" => return one (s.background.map toString)
  | "-" => return one (Setting.letters s.settings)
  | "@" => all (!full || (!quoted && (← value? "IFS").isNone))
  | "*" => all (!full || quoted || (← value? "IFS").isNone)
  | _ =>
    match Text.decimal? name.toList with
    | some 0 => return one s.name
    | some n => return one s.positional[n - 1]?
    | none => return one (valueIn? s name)

def refuseUnset (name message : String) : Run α := fail (name ++ ": " ++ message)

def characters (marks : List Mark) : List Char :=
  marks.filterMap fun
    | .glyph g => some g.char
    | .boundary => some '\x00'
    | .presence => none

/-- How much of a value a pattern fits, from the start or up to the end. Of the lengths that are
tried in order, the first one counts. -/
def trimmed (how : Trim) (pattern : Pattern) (marks : List Mark) : List Mark :=
  let cs := characters marks
  let fits := fun (part : List Char) => pattern.fits (String.ofList (part.takeWhile (· != '\x00')))
  let upToZero := List.range ((cs.takeWhile (· != '\x00')).length + 1)
  let downwards := (List.range (cs.length + 1)).reverse
  let starts := fun (n : Nat) => fits (cs.take n)
  let finishes := fun (n : Nat) => fits (cs.drop n)
  match how with
  | .start false => marks.drop ((upToZero.find? starts).getD 0)
  | .start true => marks.drop ((downwards.find? starts).getD 0)
  | .finish false => marks.take ((downwards.find? finishes).getD cs.length)
  | .finish true => marks.take ((upToZero.find? finishes).getD cs.length)

variable (capture : Command → Run String)

mutual

/-- What a word stands for. In a word of an expansion without quotes, the text itself is split. -/
def word (full loose : Bool) : (fuel : Nat) → Word → Run (List Stretch)
  | 0, _ => fail "too deep"
  | _ + 1, [] => return []
  | fuel + 1, p :: rest => do
    let first ← piece full loose fuel p
    return first ++ (← word full loose fuel rest)

def piece (full loose : Bool) : (fuel : Nat) → Piece → Run (List Stretch)
  | 0, _ => fail "too deep"
  | fuel + 1, p => do
    match p with
    | .literal text true => return [⟨.presence :: Mark.ofText true text, .none⟩]
    | .literal text false =>
      return [⟨Mark.ofText false text, if loose then .separators else .none⟩]
    | .home user =>
      match ← if user.isEmpty then value? "HOME" else pure (homeOf? user) with
      | some home => return [⟨Mark.ofText true home, .none⟩]
      | none => return [⟨Mark.ofText false ("~" ++ user), if loose then .separators else .none⟩]
    | .parameter name quoted => return [← present name full quoted]
    | .length name quoted =>
      let t ← present name false quoted
      let text := toString (characters t.marks).length
      return [⟨Mark.ofText quoted text, if quoted then .none else .separators⟩]
    | .substituted name how colon inner quoted =>
      let value ← valueOf name full quoted
      let isMissing := fun (t : Stretch) => colon && t.marks.isEmpty
      match how, value.filter (!isMissing ·) with
      | .useAlternative, none => return []
      | .useAlternative, some _ => word full (!quoted) fuel (Word.withHome inner)
      | _, some t => return [t]
      | .useDefault, none => word full (!quoted) fuel (Word.withHome inner)
      | .assignDefault, none =>
        let text := Stretch.text (← word false false fuel (Word.withHome inner))
        assignNamed name text
        return [← present name full quoted]
      | .fail, none =>
        let text := Stretch.text (← word false false fuel (Word.withHome inner))
        let missing := if colon then "parameter not set or null" else "parameter not set"
        refuseUnset name (if inner.isEmpty then missing else text)
    | .trimmed name how inner quoted =>
      -- Nothing is cut off a value that is not there, so the pattern does not matter.
      match ← valueOf name full quoted with
      | none => return [← present name full quoted]
      | some t =>
        let stretches ← word false false fuel (Word.withHome inner)
        let pattern := Mark.glyphs (Stretch.allMarks stretches)
        return [{ t with marks := trimmed how (Pattern.make pattern) t.marks }]
    | .output c quoted =>
      let text ← capture c
      return [⟨Mark.ofText quoted text, if quoted then .none else .separators⟩]
    | .arithmetic e quoted =>
      let n ← Arithmetic.eval (Stretch.text (← word false false fuel e))
      return [⟨Mark.ofText quoted (toString n), if quoted then .none else .separators⟩]
    | .malformed => fail "Bad substitution"

/-- The value of a parameter, which has to be set where unset ones are refused. -/
def present (name : String) (full quoted : Bool) : Run Stretch := do
  match ← valueOf name full quoted with
  | some t => return t
  | none =>
    if ← has .nounset then refuseUnset name "parameter not set"
    return ⟨[], if quoted then .none else .separators⟩

end

/-- More pieces than stand behind or in one another in a word. -/
def depth : Nat := 1000000

def fields (w : Word) : Run (List String) := do
  let stretches ← word capture true false depth w.withHome
  let fs := (Stretch.split (← separators) none stretches).map Mark.glyphs
  if ← has .noglob then return fs.map Glyph.text
  if fs.any Paths.isPattern then
    let files ← files
    return fs.flatMap (Paths.ofField files)
  return fs.map Glyph.text

def text (w : Word) : Run String := do
  return Stretch.text (← word capture false false depth w.withHome)

def valueText (w : Word) : Run String := do
  return Stretch.text (← word capture false false depth w.withHomes)

def documentText (w : Word) : Run String := do
  return Stretch.text (← word capture false false depth w)

def pattern (w : Word) : Run Pattern := do
  return Pattern.make (Mark.glyphs (Stretch.allMarks (← word capture false false depth w.withHome)))

end ImageLinker.Shell.Expansion
