import ImageLinker.Yaml.Tag

/-! The texts of scalars: plain, quoted and in blocks, with their lines folded. -/
namespace ImageLinker.Yaml

inductive Style where
  | plain
  | singleQuoted
  | doubleQuoted
  | literal
  | folded
  deriving DecidableEq, Repr, Inhabited

/-- White space between two words of a scalar. -/
inductive Gap where
  | blanks (text : String)
  | lines (first more : String)
  deriving DecidableEq, Repr, Inhabited

namespace Gap

def isLines : Gap → Bool
  | .lines .. => true
  | .blanks _ => false

/-- One line break becomes a space, and of several the first is dropped. -/
def fold : Gap → String
  | .blanks text => text
  | .lines first more =>
    if first = "\n" then (if more.isEmpty then " " else more) else first ++ more

/-- Reads white space. A tab in front of `column` on a later line is refused. -/
def scan (column : Nat) : (fuel : Nat) → Gap → Cursor → Except Fault (Gap × Cursor)
  | 0, gap, c => .ok (gap, c)
  | fuel + 1, gap, c =>
    if c.atBlank then
      match gap with
      | .lines .. =>
        if c.column < column ∧ c.sees '\t' then .error .tabAsIndentation
        else scan column fuel gap c.skip
      | .blanks text => scan column fuel (.blanks (text ++ String.ofList c.peek.toList)) c.skip
    else if c.atBreak then
      match gap with
      | .blanks _ => scan column fuel (.lines c.breakText "") c.skipBreak
      | .lines first more => scan column fuel (.lines first (more ++ c.breakText)) c.skipBreak
    else .ok (gap, c)

end Gap

/-- Brackets, braces and the comma structure flow collections. -/
def isFlowIndicator (c : Char) : Bool :=
  c == ',' || c == '[' || c == ']' || c == '\x7b' || c == '\x7d'

def endsPlain (flow : Bool) (c : Cursor) : Bool :=
  (c.sees ':' && Cursor.endsWord (c.peekAt 1)) || (flow && c.peek.any isFlowIndicator)

/-- Reads the characters of a plain scalar up to a blank or an indicator. -/
def plainWord (flow : Bool) : (fuel : Nat) → (text : String) → Cursor →
    Except Fault (String × Cursor)
  | 0, text, c => .ok (text, c)
  | fuel + 1, text, c =>
    match c.peek with
    | none => .ok (text, c)
    | some x =>
      if Cursor.endsWord (some x) then .ok (text, c)
      else if flow && x == ':' && (c.peekAt 1).any fun y => isFlowIndicator y || y == '?' then
        .error (.misplaced "':'")
      else if endsPlain flow c then .ok (text, c)
      else plainWord flow fuel (text.push x) c.skip

/-- Reads the words of a plain scalar that may go on in lines indented to `column`. The answer tells
whether the scalar ended at the start of a line. -/
def plainFrom (flow : Bool) (column : Nat) :
    (fuel : Nat) → (text : String) → Gap → Cursor → Except Fault (String × Bool × Cursor)
  | 0, text, gap, c => .ok (text, gap.isLines, c)
  | fuel + 1, text, gap, c => do
    if c.atDocumentMarker || c.sees '#' then return (text, gap.isLines, c)
    let (word, c) ← plainWord flow (c.rest.length + 1) "" c
    if word.isEmpty then return (text, gap.isLines, c)
    let text := text ++ gap.fold ++ word
    if !c.atBlank && !c.atBreak then return (text, false, c)
    let (gap, c) ← Gap.scan column (c.rest.length + 1) (.blanks "") c
    if !flow && c.column < column then return (text, gap.isLines, c)
    plainFrom flow column fuel text gap c

def scanPlain (flow : Bool) (column : Nat) (c : Cursor) : Except Fault (String × Bool × Cursor) :=
  plainFrom flow column (c.rest.length + 1) "" (.blanks "") c

def simpleEscape : Char → Option Char
  | '0' => some '\x00'
  | 'a' => some '\x07'
  | 'b' => some '\x08'
  | 't' | '\t' => some '\t'
  | 'n' => some '\n'
  | 'v' => some '\x0b'
  | 'f' => some '\x0c'
  | 'r' => some '\r'
  | 'e' => some '\x1b'
  | ' ' => some ' '
  | '"' => some '"'
  | '/' => some '/'
  | '\\' => some '\\'
  | 'N' => some '\u0085'
  | '_' => some '\u00a0'
  | 'L' => some '\u2028'
  | 'P' => some '\u2029'
  | _ => none

def escapeDigits : Char → Option Nat
  | 'x' => some 2
  | 'u' => some 4
  | 'U' => some 8
  | _ => none

def scanEscape (c : Cursor) : Except Fault (Char × Cursor) :=
  match c.peekAt 1 with
  | none => .error (.malformed "escape")
  | some kind =>
    match simpleEscape kind, escapeDigits kind with
    | some x, _ => .ok (x, c.skip 2)
    | none, some count =>
      let digits := (c.skip 2).rest.take count
      match digits.mapM hexValue? with
      | some values =>
        let n := values.foldl (fun n d => 16 * n + d) 0
        if digits.length < count ∨ (0xd800 ≤ n ∧ n ≤ 0xdfff) ∨ 0x10ffff < n then
          .error (.malformed "escape")
        else .ok (Char.ofNat n, c.skip (2 + count))
      | none => .error (.malformed "escape")
    | none, none => .error (.malformed "escape")

/-- Reads a quoted scalar up to its closing quote, a blank or an escaped line break; of the last the
answer tells. -/
def quotedWord (single : Bool) : (fuel : Nat) → (text : String) → Cursor →
    Except Fault (String × Bool × Cursor)
  | 0, text, c => .ok (text, false, c)
  | fuel + 1, text, c =>
    match c.peek with
    | none => .ok (text, false, c)
    | some x =>
      if Cursor.endsWord (some x) then .ok (text, false, c)
      else if single then
        if x == '\'' then
          if c.peekAt 1 == some '\'' then quotedWord single fuel (text.push '\'') (c.skip 2)
          else .ok (text, false, c)
        else quotedWord single fuel (text.push x) c.skip
      else if x == '"' then .ok (text, false, c)
      else if x == '\\' then
        if (c.peekAt 1).any isBreak then .ok (text, true, c.skip.skipBreak)
        else
          match scanEscape c with
          | .error e => .error e
          | .ok (y, c) => quotedWord single fuel (text.push y) c
      else quotedWord single fuel (text.push x) c.skip

def quotedFrom (single : Bool) : (fuel : Nat) → (text : String) → Cursor →
    Except Fault (String × Cursor)
  | 0, _, _ => .error .unclosed
  | fuel + 1, text, c => do
    if c.atDocumentMarker then throw (.misplaced "a document marker")
    if c.rest.isEmpty then throw .unclosed
    let (text, escapedBreak, c) ← quotedWord single (c.rest.length + 1) text c
    if c.sees (if single then '\'' else '"') then return (text, c.skip)
    let start := if escapedBreak then Gap.lines "" "" else .blanks ""
    let (gap, c) ← Gap.scan 0 (c.rest.length + 1) start c
    quotedFrom single fuel (text ++ gap.fold) c

def scanQuoted (single : Bool) (c : Cursor) : Except Fault (String × Cursor) :=
  quotedFrom single (c.rest.length + 1) "" c.skip

/-- What becomes of the line breaks at the end of a block. -/
inductive Chomping where
  | strip
  | clip
  | keep
  deriving DecidableEq, Repr, Inhabited

/-- The signs behind the indicator of a block: how it ends and by how much it is indented. -/
def blockHeader (c : Cursor) : Except Fault (Chomping × Option Nat × Cursor) :=
  let chomping : Option Char → Option Chomping
    | some '+' => some .keep
    | some '-' => some .strip
    | _ => none
  let digit : Option Char → Option Nat := fun x => x.bind fun x =>
    if x.isDigit then some (x.toNat - 48) else none
  match chomping c.peek, digit c.peek with
  | some chomp, _ =>
    match digit (c.peekAt 1) with
    | some 0 => .error (.malformed "block scalar")
    | some n => .ok (chomp, some n, c.skip 2)
    | none => .ok (chomp, none, c.skip)
  | none, some 0 => .error (.malformed "block scalar")
  | none, some n =>
    match chomping (c.peekAt 1) with
    | some chomp => .ok (chomp, some n, c.skip 2)
    | none => .ok (.clip, some n, c.skip)
  | none, none => .ok (.clip, none, c)

/-- Goes past blanks and a comment to the end of a line, and past its line break. -/
def finishLine (what : String) (c : Cursor) : Except Fault Cursor :=
  let c := c.skipWhile isBlank
  let c := if c.sees '#' then c.skipWhile (!isBreak ·) else c
  if Cursor.endsLine c.peek then .ok c.skipBreak else .error (.malformed what)

/-- Reads indentation and empty lines up to a line with content. Without a given indentation the
deepest of the lines is found. -/
def blockBreaks (indent : Option Nat) : (fuel : Nat) → (deepest : Nat) → (breaks : String) →
    Cursor → Except Fault (Nat × String × Cursor)
  | 0, deepest, breaks, c => .ok (deepest, breaks, c)
  | fuel + 1, deepest, breaks, c =>
    let spaces := (c.rest.takeWhile (· == ' ')).length
    let c := c.skip (match indent with
      | none => spaces
      | some n => min spaces (n - c.column))
    let deepest := max deepest c.column
    if c.sees '\t' && indent.all (c.column < ·) then .error .tabAsIndentation
    else if c.atBreak then blockBreaks indent fuel deepest (breaks ++ c.breakText) c.skipBreak
    else .ok (deepest, breaks, c)

def joinLines (literal afterBlank atBlank : Bool) (first more : String) : String :=
  if !literal && first == "\n" && !afterBlank && !atBlank then
    (if more.isEmpty then " " else "") ++ more
  else first ++ more

def blockLines (literal : Bool) (indent : Nat) :
    (fuel : Nat) → (text first more : String) → (afterBlank : Bool) → Cursor →
    Except Fault (String × String × String × Cursor)
  | 0, text, first, more, _, c => .ok (text, first, more, c)
  | fuel + 1, text, first, more, afterBlank, c => do
    if c.column ≠ indent ∨ c.rest.isEmpty then return (text, first, more, c)
    let (line, next) := c.takeWhile (!isBreak ·)
    let text := text ++ joinLines literal afterBlank c.atBlank first more ++ line
    let first := next.breakText
    let (_, more, next) ← blockBreaks (some indent) (next.rest.length + 1) 0 "" next.skipBreak
    blockLines literal indent fuel text first more c.atBlank next

/-- The text of a block scalar whose indicator is at the cursor; `parent` is the indentation of what
it lies in, or none at the top. -/
def scanBlock (literal : Bool) (parent : Option Nat) (c : Cursor) :
    Except Fault (String × Cursor) := do
  let (chomping, increment, c) ← blockHeader c.skip
  let c ← finishLine "block scalar" c
  let given := increment.map fun n => parent.getD 0 + n
  let (deepest, more, c) ← blockBreaks given (c.rest.length + 1) 0 "" c
  let least := match parent with
    | some n => max (n + 1) 1
    | none => 1
  let indent := given.getD (max deepest least)
  let (text, first, more, c) ← blockLines literal indent (c.rest.length + 1) "" "" more false c
  let first := if chomping = .strip then "" else first
  let more := if chomping = .keep then more else ""
  return (text ++ first ++ more, c)

end ImageLinker.Yaml
