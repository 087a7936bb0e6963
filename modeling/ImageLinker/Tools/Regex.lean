import ImageLinker.Shell.CharacterSet
import ImageLinker.Unix.Text

/-!
Regular expressions, basic and extended, with groups that can be referred back to. Of all matches
that begin first, the longest counts.
-/
namespace ImageLinker.Tools

open Shell Unix

inductive Regex where
  | empty
  | one (c : Char)
  | any
  | set (s : CharacterSet)
  | start (mark : Option Char)
  | finish (mark : Option Char)
  /-- Between a character of words and another one, or anywhere else. -/
  | boundary (isThere : Bool)
  | wordEdge (begins : Bool)
  | clear (behind : Bool)
  | sequence (first second : Regex)
  | either (first second : Regex)
  | group (number : Nat) (r : Regex)
  | again (number : Nat)
  | repeated (r : Regex) (least : Nat) (most : Option Nat)
  deriving DecidableEq, Repr, Inhabited

/-- Why an expression cannot be read. -/
inductive RegexFault where
  | nothing
  | openBracket
  | openGroup
  | closedGroup
  | openBounds
  | badBounds
  | className
  | loneClass
  | range
  | reference
  | backslash
  | nothingToRepeat
  | tooBig
  deriving DecidableEq, Repr, Inhabited

namespace RegexFault

def message : RegexFault → String
  | .nothing => "Invalid regular expression"
  | .openBracket => "Unmatched [, [^, [:, [., or [="
  | .openGroup => "Unmatched ( or \\("
  | .closedGroup => "Unmatched ) or \\)"
  | .openBounds => "Unmatched \\\x7b"
  | .badBounds => "Invalid content of \\\x7b\\\x7d"
  | .className => "Invalid character class name"
  | .loneClass => "character class syntax is [[:space:]], not [:space:]"
  | .range => "Invalid range end"
  | .reference => "Invalid back reference"
  | .backslash => "Trailing backslash"
  | .nothingToRepeat => "Invalid preceding regular expression"
  | .tooBig => "Regular expression too big"

end RegexFault

namespace Regex

structure Dialect where
  extended : Bool := false
  /-- Signs that have nothing to belong to stand for themselves or for nothing. -/
  lenient : Bool := false
  /-- Places between characters can be repeated like anything else. -/
  repeatsPlaces : Bool := false
  /-- Carets and dollars stand for lines with such a mark between them. -/
  mark : Option Char := none
  /-- Plus signs, question marks and bars stand for themselves, and so do letters that a backslash
  hides. -/
  plain : Bool := false
  deriving DecidableEq, Repr, Inhabited

abbrev Reading (α : Type) := Except RegexFault α

structure Groups where
  opened : Nat := 0
  /-- Those that can be referred back to: they are closed, and not in another alternative. -/
  closed : List Nat := []
  deriving DecidableEq, Repr, Inhabited

/-- An expression that has been read, what follows it, and the groups so far. -/
structure Read where
  regex : Regex
  rest : List Char
  groups : Groups

def readNamed? : List Char → Option (Char × List Char)
  | '.' :: c :: '.' :: ']' :: rest => some (c, rest)
  | '=' :: c :: '=' :: ']' :: rest => some (c, rest)
  | _ => none

def readItem? : List Char → Option (Char × List Char)
  | '[' :: rest =>
    match readNamed? rest with
    | some item => some item
    | none => some ('[', rest)
  | c :: rest => some (c, rest)
  | [] => none

/-- Reads the items of a set up to the closing bracket, which is an item itself if it comes
first. -/
def readItems : (fuel : Nat) → (first : Bool) → List (Char × Char) → List Char →
    Reading (List (Char × Char) × List Char)
  | 0, _, _, _ => .error .openBracket
  | fuel + 1, first, done, cs =>
    match cs with
    | ']' :: rest =>
      if first then readFrom fuel done cs else .ok (done, rest)
    | '[' :: ':' :: rest =>
      let name := rest.takeWhile Char.isAlpha
      match rest.drop name.length with
      | ':' :: ']' :: rest =>
        match CharacterSet.ofClass (String.ofList name) with
        | some ranges => readItems fuel false (ranges ++ done) rest
        | none => .error .className
      | _ => .error .openBracket
    | _ => readFrom fuel done cs
where
  readFrom (fuel : Nat) (done : List (Char × Char)) (cs : List Char) :
      Reading (List (Char × Char) × List Char) :=
    match readItem? cs with
    | none => .error .openBracket
    | some (c, '-' :: rest) =>
      match rest, readItem? rest with
      | ']' :: _, _ => readItems fuel false ((c, c) :: done) ('-' :: rest)
      | _, some (last, rest) =>
        if last < c then .error .range else readItems fuel false ((c, last) :: done) rest
      | _, none => .error .openBracket
    | some (c, rest) => readItems fuel false ((c, c) :: done) rest

def readSet (cs : List Char) : Reading (CharacterSet × List Char) := do
  let negated := cs.head? == some '^'
  let items := if negated then cs.drop 1 else cs
  if items.isEmpty then throw .nothing
  let (ranges, rest) ← readItems (2 * cs.length + 2) true [] items
  return (⟨negated, ranges⟩, rest)

def isLoneClass (inside : List Char) : Bool :=
  let inside := if inside.head? == some '^' then inside.drop 1 else inside
  2 < inside.length && inside.head? == some ':' && inside.getLast? == some ':' &&
    !inside.contains '-' && !inside.contains '['

def mostRepeats : Nat := 32767

/-- The bounds of a repetition, whose opening brace has been read: `m`, `m,`, `,n` or `m,n`. -/
def readBounds (extended : Bool) (cs : List Char) : Reading (Nat × Option Nat × List Char) := do
  let (least, rest) := Text.numberPrefix 10 cs.length none cs
  let close : List Char → Reading (List Char)
    | '\x7d' :: rest => if extended then .ok rest else .error .badBounds
    | '\\' :: '\x7d' :: rest => if extended then .error .badBounds else .ok rest
    | rest => .error (if rest.any fun c => c == ',' || c == '\x7d' then .badBounds else .openBounds)
  let (low, high, rest) ← match rest with
    | ',' :: rest => do
      let (most, rest) := Text.numberPrefix 10 rest.length none rest
      pure (least.getD 0, most, ← close rest)
    | rest => do
      let rest ← close rest
      match least with
      | some n => pure (n, some n, rest)
      | none => .error .badBounds
  if high.any (· < low) then .error .badBounds
  if mostRepeats < max low (high.getD 0) then .error .tooBig
  return (low, high, rest)

/-- Whether braces cannot hold bounds, by what stands behind the opening one. -/
def isNoBounds (cs : List Char) : Bool :=
  let rest := cs.dropWhile Char.isDigit
  let rest := if rest.head? == some ',' then (rest.drop 1).dropWhile Char.isDigit else rest
  !(rest.head?.any fun c => c == ',' || c == '\x7d')

/-- A sign that repeats what stands in front of it. -/
inductive Sign where
  | none
  | bounds (least : Nat) (most : Option Nat)

/-- The sign of a repetition at the start of a text, and what follows it. -/
def readSign (d : Dialect) (cs : List Char) : Reading (Sign × List Char) :=
  let bounded := fun (rest : List Char) =>
    match readBounds d.extended rest with
    | .ok (least, most, rest) => .ok (.bounds least most, rest)
    | .error fault =>
      if d.extended && d.lenient && isNoBounds rest then .ok (.none, cs) else .error fault
  let short := fun (least : Nat) (most : Option Nat) (rest : List Char) =>
    if d.plain then .ok (.none, cs) else .ok (.bounds least most, rest)
  match cs, d.extended with
  | '*' :: rest, _ => .ok (.bounds 0 none, rest)
  | '+' :: rest, true | '\\' :: '+' :: rest, false => short 1 none rest
  | '?' :: rest, true | '\\' :: '?' :: rest, false => short 0 (some 1) rest
  | '\x7b' :: rest, true | '\\' :: '\x7b' :: rest, false => bounded rest
  | _, _ => .ok (.none, cs)

/-- Whether a sign may not follow another one in a strict basic expression. -/
def startsClosedSign : List Char → Bool
  | '*' :: _ | '\\' :: '\x7b' :: _ => true
  | _ => false

def readRepeats (d : Dialect) : (fuel : Nat) → Regex → List Char → Reading (Regex × List Char)
  | 0, r, cs => .ok (r, cs)
  | fuel + 1, r, cs => do
    match ← readSign d cs with
    | (.none, _) => return (r, cs)
    | (.bounds least most, rest) =>
      if !d.extended && !d.lenient && startsClosedSign rest then .error .nothingToRepeat
      readRepeats d fuel (.repeated r least most) rest

def isPlace : Regex → Bool
  | .start _ | .finish _ | .boundary _ | .wordEdge _ => true
  | _ => false

/-- Whether nothing can repeat an expression, since it is for a place. In basic expressions nothing
repeats a place that comes first. -/
def isAnchor (d : Dialect) (first : Bool) (r : Regex) : Bool :=
  isPlace r && !(d.repeatsPlaces && (d.extended || !first))

/-- Whether signs that repeat a place take the meaning from what follows them. Braces take it from
what is in them. -/
def hidesNext (signs : List Char) : Bool := signs.getLast?.any (· != '\x7d')

def wordSet (negated : Bool) : CharacterSet :=
  ⟨negated, [('a', 'z'), ('A', 'Z'), ('0', '9'), ('_', '_')]⟩

def spaceSet (negated : Bool) : CharacterSet := ⟨negated, [('\t', '\x0d'), (' ', ' ')]⟩

/-- What a backslash and a character stand for, groups apart. -/
def escaped (c : Char) : Regex :=
  match c with
  | 'w' => .set (wordSet false)
  | 'W' => .set (wordSet true)
  | 's' => .set (spaceSet false)
  | 'S' => .set (spaceSet true)
  | 'b' => .boundary true
  | 'B' => .boundary false
  | '<' => .wordEdge true
  | '>' => .wordEdge false
  | '\x60' => .start none
  | '\'' => .finish none
  | c => .one c

/-- What ends a sequence: the end of the text, an alternative or the end of a group. -/
def endsSequence (d : Dialect) (depth : Nat) : List Char → Bool
  | [] => true
  | '|' :: _ => d.extended && !d.plain
  | '\n' :: _ => d.lenient
  | ')' :: _ => d.extended && (depth != 0 || !d.lenient)
  | '\\' :: '|' :: _ => !d.extended && !d.plain
  | '\\' :: ')' :: _ => !d.extended
  | _ => false

mutual

def readEither (d : Dialect) (depth : Nat) : (fuel : Nat) → List Char → Groups → Reading Read
  | 0, _, _ => .error .tooBig
  | fuel + 1, cs, groups => do
    let first ← readSequence d depth fuel true cs groups
    let more := match first.rest, d.extended with
      | '|' :: rest, true | '\\' :: '|' :: rest, false => if d.plain then none else some rest
      | '\n' :: rest, _ => some rest
      | _, _ => none
    match more with
    | none => return first
    | some rest =>
      let second ← readEither d depth fuel rest { first.groups with closed := groups.closed }
      let closed := first.groups.closed ++ second.groups.closed
      return ⟨.either first.regex second.regex, second.rest, { second.groups with closed }⟩

/-- Reads a sequence. A caret has another meaning in basic expressions where it comes first. A sign
that has nothing to repeat takes the meaning from a parenthesis behind it. -/
def readSequence (d : Dialect) (depth : Nat) :
    (fuel : Nat) → (first : Bool) → List Char → Groups → Reading Read
  | 0, _, _, _ => .error .tooBig
  | fuel + 1, first, cs, groups => do
    if endsSequence d depth cs then return ⟨.empty, cs, groups⟩
    let item ← readItem d depth fuel first cs groups
    let (regex, rest) ← if isAnchor d first item.regex then pure (item.regex, item.rest)
      else readRepeats d fuel item.regex item.rest
    let signs := item.rest.take (item.rest.length - rest.length)
    let (regex, rest) ← match isPlace item.regex && hidesNext signs, rest with
      | true, ')' :: rest => do
        let (next, rest) ← readRepeats d fuel (.one ')') rest
        pure (.sequence regex next, rest)
      | _, _ => pure (regex, rest)
    let more ← readSequence d depth fuel false rest item.groups
    return { more with regex := .sequence regex more.regex }

def readItem (d : Dialect) (depth : Nat) :
    (fuel : Nat) → (first : Bool) → List Char → Groups → Reading Read
  | 0, _, _, _ => .error .tooBig
  | fuel + 1, first, cs, groups => do
    match cs, d.extended with
    | [], _ => return ⟨.empty, [], groups⟩
    | '.' :: rest, _ => return ⟨.any, rest, groups⟩
    | '[' :: inside, _ =>
      let (s, rest) ← readSet inside
      if isLoneClass (inside.take (inside.length - rest.length - 1)) then .error .loneClass
      return ⟨.set s, rest, groups⟩
    | '^' :: rest, extended =>
      return ⟨if extended || first then .start d.mark else .one '^', rest, groups⟩
    | '$' :: rest, extended =>
      return ⟨if extended || endsSequence d depth rest then .finish d.mark else .one '$', rest,
        groups⟩
    | '(' :: rest, true => readGroup d depth fuel rest groups
    | '\\' :: '(' :: rest, false => readGroup d depth fuel rest groups
    | ['\\'], _ => .error .backslash
    | '*' :: rest, false => return ⟨.one '*', rest, groups⟩
    | '\\' :: '\x7b' :: rest, false =>
      if d.lenient then return ⟨.one '\x7b', rest, groups⟩ else .error .nothingToRepeat
    | '\\' :: c :: rest, _ =>
      if c.isDigit && c != '0' then
        if !groups.closed.contains (c.toNat - 48) then .error .reference
        return ⟨.again (c.toNat - 48), rest, groups⟩
      return ⟨if d.plain then .one c else escaped c, rest, groups⟩
    | c :: rest, extended =>
      let (sign, after) ← if extended then readSign d cs else pure (Sign.none, cs)
      match sign with
      | .bounds .. =>
        if !d.lenient then .error .nothingToRepeat
        else
          match c == '\x7b', after with
          | false, ')' :: rest => return ⟨.one ')', rest, groups⟩
          | _, after => return ⟨.empty, after, groups⟩
      | .none => return ⟨.one c, rest, groups⟩

def readGroup (d : Dialect) (depth : Nat) : (fuel : Nat) → List Char → Groups → Reading Read
  | 0, _, _ => .error .tooBig
  | fuel + 1, cs, groups => do
    let number := groups.opened + 1
    let inner ← readEither d (depth + 1) fuel cs { groups with opened := number }
    match inner.rest, d.extended with
    | ')' :: rest, true | '\\' :: ')' :: rest, false =>
      let groups := { inner.groups with closed := number :: inner.groups.closed }
      return ⟨.group number inner.regex, rest, groups⟩
    | _, _ => .error .openGroup

end

/-- Reads an expression. The answer tells how many groups it has. -/
def read (d : Dialect) (text : String) : Reading (Regex × Nat) := do
  let cs := text.toList
  let r ← readEither d 0 (4 * cs.length + 8) cs {}
  if r.rest.isEmpty then return (r.regex, r.groups.opened) else .error .closedGroup

def literal (text : String) : Regex := text.toList.foldr (fun c r => .sequence (.one c) r) .empty

def refersBack : Regex → Bool
  | .again _ => true
  | .sequence a b | .either a b => refersBack a || refersBack b
  | .group _ r | .repeated r _ _ => refersBack r
  | _ => false

/-- A position in a text, and what groups have matched: where each begins and its characters. -/
structure Place where
  before : Option Char
  index : Nat
  rest : List Char
  groups : List (Nat × List Char) := []
  deriving DecidableEq, Repr, Inhabited

namespace Place

def ofText (text : String) : Place := ⟨none, 0, text.toList, []⟩

def next (p : Place) : Place :=
  match p.rest with
  | c :: rest => { p with before := some c, index := p.index + 1, rest }
  | [] => p

end Place

def isWord (c : Option Char) : Bool := c.any fun c => c.isAlphanum || c == '_'

/-- Whether an expression that takes up no characters matches at a place. -/
def holdsAt (p : Place) : Regex → Bool
  | .start mark => p.index = 0 || (mark.isSome && p.before == mark)
  | .finish mark => p.rest.isEmpty || (mark.isSome && p.rest.head? == mark)
  | .boundary isThere => (isWord p.before != isWord p.rest.head?) == isThere
  | .wordEdge begins =>
    if begins then !isWord p.before && isWord p.rest.head?
    else isWord p.before && !isWord p.rest.head?
  | .clear behind => !isWord (if behind then p.before else p.rest.head?)
  | _ => true

/-- Whether an expression for one character matches one. A set leaves out a character if it leaves
out either case of it. -/
def accepts (insensitive : Bool) (x : Char) : Regex → Bool
  | .one c => x == c || (insensitive && x.toLower == c.toLower)
  | .set s =>
    if insensitive && s.negated then s.contains x.toLower && s.contains x.toUpper
    else s.contains x || (insensitive && (s.contains x.toLower || s.contains x.toUpper))
  | .any => true
  | _ => false

def follow (insensitive : Bool) (p : Place) : List Char → Option Place
  | [] => some p
  | c :: cs =>
    match p.rest with
    | x :: _ => if accepts insensitive x (.one c) then follow insensitive p.next cs else none
    | [] => none

def isSame (p q : Place) : Bool := p.index == q.index && p.groups == q.groups

/-- Places of two lists, both in order, each once and in order. -/
def merge : (fuel : Nat) → List Place → List Place → List Place
  | 0, ps, _ => ps
  | _ + 1, [], qs => qs
  | _ + 1, ps, [] => ps
  | fuel + 1, p :: ps, q :: qs =>
    if p.index < q.index then p :: merge fuel ps (q :: qs)
    else if q.index < p.index then q :: merge fuel (p :: ps) qs
    else if ps.any (isSame q) || isSame p q then merge fuel (p :: ps) qs
    else q :: merge fuel (p :: ps) qs

def union (ps qs : List Place) : List Place := merge (ps.length + qs.length + 1) ps qs

def behind? (insensitive : Bool) (r : Regex) (p : Place) : Option Place :=
  match p.rest with
  | x :: _ => if accepts insensitive x r then some p.next else none
  | [] => none

/-- A place and those behind it as long as characters are accepted and no given index is reached. -/
def chain (accept : Char → Bool) (stop : Option Nat) : (fuel : Nat) → Place → List Place
  | 0, _ => []
  | fuel + 1, p =>
    if stop == some p.index then []
    else
      p :: match p.rest with
        | x :: _ => if accept x then chain accept stop fuel p.next else []
        | [] => []

def chains (accept : Char → Bool) : List Place → List Place
  | [] => []
  | p :: ps =>
    chain accept (ps.head?.map (·.index)) (p.rest.length + 1) p ++ chains accept ps

/-- All places that any number of steps leads to, in addition to those that have been found. -/
def closure (step : List Place → List Place) :
    (fuel : Nat) → (found new : List Place) → List Place
  | 0, found, _ => found
  | fuel + 1, found, new =>
    let fresh := (step new).filter fun p => !found.any (isSame p)
    if fresh.isEmpty then found else closure step fuel (union found fresh) fresh

def upTo (step : List Place → List Place) : (most : Nat) → (found new : List Place) → List Place
  | 0, found, _ => found
  | most + 1, found, new =>
    let fresh := (step new).filter fun p => !found.any (isSame p)
    if fresh.isEmpty then found else upTo step most (union found fresh) fresh

def exactly (step : List Place → List Place) : (count : Nat) → List Place → List Place
  | 0, ps => ps
  | _ + 1, [] => []
  | count + 1, ps => exactly step count (step ps)

def isOne : Regex → Bool
  | .one _ | .set _ | .any => true
  | _ => false

/-- The places up to which an expression can match from any of some places, all in order. Groups are
kept in mind if they matter. -/
def reach (insensitive keeps : Bool) : Regex → List Place → List Place
  | .empty, ps => ps
  | .sequence a b, ps => reach insensitive keeps b (reach insensitive keeps a ps)
  | .either a b, ps => union (reach insensitive keeps a ps) (reach insensitive keeps b ps)
  | .group n a, ps =>
    if keeps then
      ps.foldl (fun found p => union found ((reach insensitive keeps a [p]).map fun q =>
        { q with groups := (n, p.rest.take (q.index - p.index)) :: q.groups.filter (·.1 != n) })) []
    else reach insensitive keeps a ps
  | .again n, ps =>
    ps.foldl (fun found p =>
      union found ((p.groups.lookup n).bind (follow insensitive p)).toList) []
  | .repeated a least most, ps =>
    let step := reach insensitive keeps a
    let ps := exactly step least ps
    match most with
    | some most => upTo step (most - least) ps ps
    | none =>
      if isOne a then chains (accepts insensitive · a) ps
      else closure step ((ps.head?.map (·.rest.length)).getD 0 + 2) ps ps
  | .one c, ps => ps.filterMap (behind? insensitive (.one c))
  | .set s, ps => ps.filterMap (behind? insensitive (.set s))
  | .any, ps => ps.filterMap (behind? insensitive .any)
  | r, ps => ps.filter (holdsAt · r)

/-- Goes on with one more round as long as that leads on, then with what comes behind. -/
def rounds (one : (Place → Option Place) → Place → Option Place) (goOn : Place → Option Place) :
    (fuel : Nat) → (least : Nat) → (most : Option Nat) → Place → Option Place
  | 0, _, _, p => goOn p
  | fuel + 1, least, most, p =>
    let more := if most == some 0 then none
      else one (fun q =>
        if q.index == p.index && least == 0 then none
        else rounds one goOn fuel (least - 1) (most.map (· - 1)) q) p
    match more, least with
    | some q, _ => some q
    | none, 0 => goOn p
    | none, _ => none

/-- The first way in which an expression and what comes behind it match, where more is preferred. -/
def firstWay (insensitive : Bool) : Regex → (Place → Option Place) → Place → Option Place
  | .empty, goOn, p => goOn p
  | .sequence a b, goOn, p => firstWay insensitive a (firstWay insensitive b goOn) p
  | .either a b, goOn, p =>
    match firstWay insensitive a goOn p with
    | some q => some q
    | none => firstWay insensitive b goOn p
  | .group n a, goOn, p =>
    firstWay insensitive a (fun q => goOn
      { q with groups := (n, p.rest.take (q.index - p.index)) :: q.groups.filter (·.1 != n) }) p
  | .again n, goOn, p => ((p.groups.lookup n).bind (follow insensitive p)).bind goOn
  | .repeated a least most, goOn, p =>
    rounds (firstWay insensitive a) goOn (p.rest.length + least + 1) least most p
  | .one c, goOn, p => (behind? insensitive (.one c) p).bind goOn
  | .set s, goOn, p => (behind? insensitive (.set s) p).bind goOn
  | .any, goOn, p => (behind? insensitive .any p).bind goOn
  | r, goOn, p => if holdsAt p r then goOn p else none

/-- What an expression matched: the place where that begins, and the place behind it with what its
groups matched. -/
structure Found where
  start : Place
  finish : Place
  deriving DecidableEq, Repr, Inhabited

def Found.text (m : Found) : List Char := m.start.rest.take (m.finish.index - m.start.index)

structure Finder where
  regex : Regex
  groups : Nat := 0
  insensitive : Bool := false
  deriving DecidableEq, Repr, Inhabited

namespace Finder

def at? (f : Finder) (p : Place) : Option Place :=
  (reach f.insensitive f.regex.refersBack f.regex [p]).getLast?

/-- The first place from the given one on where a match begins, and where the longest match there
ends. -/
def searchFrom (f : Finder) : (fuel : Nat) → Place → Option Found
  | 0, _ => none
  | fuel + 1, p =>
    match f.at? p with
    | some q => some ⟨p, q⟩
    | none => if p.rest.isEmpty then none else f.searchFrom fuel p.next

def search? (f : Finder) (p : Place) : Option Found := f.searchFrom (p.rest.length + 1) p

def matches? (f : Finder) (text : String) : Bool := (f.search? (Place.ofText text)).isSome

def withGroups (f : Finder) (m : Found) : Found :=
  if f.groups = 0 then m
  else
    let wanted := fun (q : Place) => if q.index == m.finish.index then some q else none
    match firstWay f.insensitive f.regex wanted m.start with
    | some q => { m with finish := q }
    | none => m

/-- The first so many matches that do not touch each other's characters. An empty one does not stand
right behind another. -/
def matchesFrom (f : Finder) : (fuel : Nat) → (most : Nat) → (last : Option Nat) → Place →
    List Found
  | 0, _, _, _ | _, 0, _, _ => []
  | fuel + 1, most + 1, last, p =>
    match f.search? p with
    | none => []
    | some m =>
      if m.finish.index ≠ m.start.index then
        let behind := { m.finish with groups := [] }
        f.withGroups m :: f.matchesFrom fuel most (some m.finish.index) behind
      else
        let next := { m.start.next with groups := [] }
        let isLast := m.start.rest.isEmpty
        if last = some m.start.index then
          if isLast then [] else f.matchesFrom fuel (most + 1) none next
        else f.withGroups m :: if isLast then [] else f.matchesFrom fuel most none next

def firstMatches (f : Finder) (most : Nat) (text : String) : List Found :=
  f.matchesFrom (2 * text.length + 2) most none (Place.ofText text)

def allMatches (f : Finder) (text : String) : List Found := f.firstMatches (text.length + 1) text

end Finder

end Regex

end ImageLinker.Tools
