import ImageLinker.Yaml.Token

/-!
From a text to its tokens. That something is a key shows only at the colon behind it, so a slot is
kept free in front of everything that may be a key; the colon fills it.
-/
namespace ImageLinker.Yaml

/-- Something that a colon may turn into a key. -/
structure PendingKey where
  slot : Nat
  required : Bool
  index : Nat
  line : Nat
  column : Nat
  deriving DecidableEq, Repr, Inhabited

structure Lexer where
  cursor : Cursor
  slots : Array (List Token) := #[]
  indent : Option Nat := none
  outerIndents : List (Option Nat) := []
  pending : Option PendingKey := none
  outerPending : List (Option PendingKey) := []
  keyAllowed : Bool := true
  deriving DecidableEq, Repr, Inhabited

namespace Lexer

def inFlow (l : Lexer) : Bool := !l.outerPending.isEmpty

def emit (l : Lexer) (t : Token) : Lexer := { l with slots := l.slots.push [t] }

def emitSkip (l : Lexer) (t : Token) (count : Nat := 1) : Lexer :=
  { l.emit t with cursor := l.cursor.skip count }

def deeper : Option Nat → Option Nat → Bool
  | none, _ => false
  | some _, none => true
  | some n, some m => m < n

/-- Makes a column the indentation if it lies deeper, and tells whether it does. In flow collections
indentation does not count. -/
def indentTo (l : Lexer) (column : Nat) : Bool × Lexer :=
  if !l.inFlow && deeper (some column) l.indent then
    (true, { l with indent := some column, outerIndents := l.indent :: l.outerIndents })
  else (false, l)

def leave (column indent : Option Nat) :
    List (Option Nat) → List Token × Option Nat × List (Option Nat)
  | [] => if deeper indent column then ([.blockEnd], none, []) else ([], indent, [])
  | next :: outer =>
    if deeper indent column then
      let (ends, rest) := leave column next outer
      (.blockEnd :: ends, rest)
    else ([], indent, next :: outer)

def dedentTo (l : Lexer) (column : Option Nat) : Lexer :=
  if l.inFlow then l
  else
    let (ends, indent, outerIndents) := leave column l.indent l.outerIndents
    { l with slots := l.slots.push ends, indent, outerIndents }

/-- A key lies in one line and is at most 1024 characters long. -/
def expire (c : Cursor) : Option PendingKey → Except Fault (Option PendingKey)
  | none => .ok none
  | some k =>
    if k.line < c.line ∨ k.index + 1024 < c.index then
      if k.required then .error .keyWithoutColon else .ok none
    else .ok (some k)

def expireKeys (l : Lexer) : Except Fault Lexer := do
  return { l with
    pending := ← expire l.cursor l.pending
    outerPending := ← l.outerPending.mapM (expire l.cursor) }

def forgetKey (l : Lexer) : Except Fault Lexer :=
  if l.pending.any (·.required) then .error .keyWithoutColon else .ok { l with pending := none }

/-- Keeps a slot free if a key may begin at the cursor. -/
def saveKey (l : Lexer) : Except Fault Lexer := do
  if !l.keyAllowed then return l
  let l ← l.forgetKey
  let c := l.cursor
  let required := !l.inFlow && l.indent == some c.column
  return { l with
    slots := l.slots.push []
    pending := some ⟨l.slots.size, required, c.index, c.line, c.column⟩ }

/-- The end of all block collections, in front of what belongs to no document. -/
def closeDocument (l : Lexer) : Except Fault Lexer := do
  let l ← (l.dedentTo none).forgetKey
  return { l with keyAllowed := false }

def marker (l : Lexer) (t : Token) : Except Fault Lexer := do
  return (← l.closeDocument).emitSkip t 3

def directive (l : Lexer) : Except Fault Lexer := do
  let l ← l.closeDocument
  let (name, c) := l.cursor.skip.takeWhile isWord
  if name.isEmpty || !Cursor.endsWord c.peek then throw (.malformed "directive")
  let (d, c) ← match name with
    | "YAML" => scanVersion c
    | "TAG" => scanTagHandle c
    | _ => throw (.malformed "directive")
  return { l.emit (.directive d) with cursor := ← finishLine "directive" c }

def flowStart (l : Lexer) (t : Token) : Except Fault Lexer := do
  let l ← l.saveKey
  return { l.emitSkip t with
    pending := none, outerPending := l.pending :: l.outerPending, keyAllowed := true }

def flowEnd (l : Lexer) (t : Token) : Except Fault Lexer := do
  let l ← l.forgetKey
  let l := match l.outerPending with
    | [] => l
    | key :: outer => { l with pending := key, outerPending := outer }
  return { l.emitSkip t with keyAllowed := false }

def flowEntry (l : Lexer) : Except Fault Lexer := do
  return { (← l.forgetKey).emitSkip .flowEntry with keyAllowed := true }

/-- Opens a block collection at the cursor if that lies deeper than the present one. -/
def openBlock (l : Lexer) (what : String) (t : Token) : Except Fault Lexer :=
  if l.inFlow then .ok l
  else if !l.keyAllowed then .error (.misplaced what)
  else
    let (opened, l) := l.indentTo l.cursor.column
    .ok (if opened then l.emit t else l)

def blockEntry (l : Lexer) : Except Fault Lexer := do
  let l ← (← l.openBlock "'-'" .blockSequenceStart).forgetKey
  return { l.emitSkip .blockEntry with keyAllowed := true }

def key (l : Lexer) : Except Fault Lexer := do
  let l ← (← l.openBlock "'?'" .blockMappingStart).forgetKey
  return { l.emitSkip .key with keyAllowed := !l.inFlow }

def value (l : Lexer) : Except Fault Lexer := do
  match l.pending with
  | some k =>
    let (opened, l) := l.indentTo k.column
    let l := { l with
      slots := l.slots.setIfInBounds k.slot (if opened then [.blockMappingStart, .key] else [.key])
      pending := none, keyAllowed := false }
    return l.emitSkip .value
  | none =>
    let l ← l.openBlock "':'" .blockMappingStart
    return { l.emitSkip .value with keyAllowed := !l.inFlow }

def word (l : Lexer) (scan : Cursor → Except Fault (Token × Cursor)) : Except Fault Lexer := do
  let l ← l.saveKey
  let (t, c) ← scan l.cursor
  return { l.emit t with cursor := c, keyAllowed := false }

def plain (l : Lexer) : Except Fault Lexer := do
  let l ← l.saveKey
  let column := match l.indent with
    | none => 0
    | some n => n + 1
  let (text, atLineStart, c) ← scanPlain l.inFlow column l.cursor
  return { l.emit (.scalar text .plain) with cursor := c, keyAllowed := atLineStart }

def quoted (l : Lexer) (single : Bool) : Except Fault Lexer :=
  l.word fun c => do
    let (text, c) ← scanQuoted single c
    return (.scalar text (if single then .singleQuoted else .doubleQuoted), c)

def block (l : Lexer) (literal : Bool) : Except Fault Lexer := do
  let l ← l.forgetKey
  let (text, c) ← scanBlock literal l.indent l.cursor
  return { l.emit (.scalar text (if literal then .literal else .folded)) with
    cursor := c, keyAllowed := true }

def isIndicator (c : Char) : Bool := "-?:,[]\x7b\x7d#&*!|>'\"%@\x60".toList.contains c

def beginsPlain (l : Lexer) (x : Char) : Bool :=
  let next := l.cursor.peekAt 1
  (!Cursor.endsWord (some x) && !isIndicator x) || (x == '-' && !next.any isBlank) ||
    (!l.inFlow && (x == '?' || x == ':') && !Cursor.endsWord next)

def token (l : Lexer) (x : Char) : Except Fault Lexer :=
  let c := l.cursor
  let alone := Cursor.endsWord (c.peekAt 1)
  if c.column == 0 && x == '%' then l.directive
  else if c.atMarker '-' then l.marker .documentStart
  else if c.atMarker '.' then l.marker .documentEnd
  else match x with
    | '[' => l.flowStart .flowSequenceStart
    | '\x7b' => l.flowStart .flowMappingStart
    | ']' => l.flowEnd .flowSequenceEnd
    | '\x7d' => l.flowEnd .flowMappingEnd
    | ',' => l.flowEntry
    | '*' => l.word fun c => do
      let (name, c) ← scanName c
      return (.alias name, c)
    | '&' => l.word fun c => do
      let (name, c) ← scanName c
      return (.anchor name, c)
    | '!' => l.word fun c => do
      let (handle, suffix, c) ← scanTag l.inFlow c
      return (.tag handle suffix, c)
    | '\'' => l.quoted true
    | '"' => l.quoted false
    | x =>
      if x == '-' && alone then l.blockEntry
      else if x == '?' && (l.inFlow || alone) then l.key
      else if x == ':' && (l.inFlow || alone) then l.value
      else if x == '|' && !l.inFlow then l.block true
      else if x == '>' && !l.inFlow then l.block false
      else if l.beginsPlain x then l.plain
      else .error (.strayCharacter x)

/-- Goes past white space and comments to the next token. A new line allows a key, but for flow
collections. Before a key is allowed tabs are white space too. -/
def skipBlank (flow : Bool) : (fuel : Nat) → (keyAllowed : Bool) → Cursor → Bool × Cursor
  | 0, keyAllowed, c => (keyAllowed, c)
  | fuel + 1, keyAllowed, c =>
    let c := if c.column == 0 && c.sees '\ufeff' then c.skip else c
    let c := c.skipWhile fun x => x == ' ' || ((flow || !keyAllowed) && x == '\t')
    let c := if c.sees '#' then c.skipWhile (!isBreak ·) else c
    if c.atBreak then skipBlank flow fuel (keyAllowed || !flow) c.skipBreak
    else (keyAllowed, c)

/-- Reads tokens to the end of the text. -/
def run : (fuel : Nat) → Lexer → Except Fault Lexer
  | 0, l => .ok l
  | fuel + 1, l => do
    let (keyAllowed, cursor) := skipBlank l.inFlow (l.cursor.rest.length + 1) l.keyAllowed l.cursor
    let l ← ({ l with cursor, keyAllowed }).expireKeys
    match cursor.peek with
    | none => (l.dedentTo none).forgetKey
    | some x => run fuel (← (l.dedentTo (some cursor.column)).token x)

end Lexer

def Token.scan (text : String) : Except Fault (List Token) := do
  let chars := text.toList
  if let some c := chars.find? (!isAllowed ·) then throw (.forbiddenCharacter c)
  let l ← Lexer.run (chars.length + 1) { cursor := { rest := chars } }
  return l.slots.toList.flatten

end ImageLinker.Yaml
