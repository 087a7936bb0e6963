import ImageLinker.Yaml.Cursor

/-! Anchors, tags and directives: the words that say something about a node or a document. -/
namespace ImageLinker.Yaml

def endsName (c : Option Char) : Bool :=
  Cursor.endsWord c || c.any fun x => "?:,]\x7d%@\x60".toList.contains x

def scanName (c : Cursor) : Except Fault (String × Cursor) :=
  let (name, c) := c.skip.takeWhile isWord
  if name.isEmpty || !endsName c.peek then .error (.malformed "anchor") else .ok (name, c)

/-- A tag is bytes, because those that it escapes need not spell a text. -/
abbrev Tag := List UInt8

namespace Tag

def ofText (text : String) : Tag := text.toUTF8.toList

def beforeZero (tag : Tag) : Tag := tag.takeWhile (· != 0)

def localName? : Tag → Option String
  | 0x21 :: name => String.fromUTF8? ⟨(if name.isEmpty then [0x21] else name).toArray⟩
  | _ => none

end Tag

/-- The characters of a tag. Those that structure flow collections are allowed between angle
brackets only. -/
def isTagChar (bracketed : Bool) (c : Char) : Bool :=
  isWord c || ";/?:@&=+$.%!~*'()".toList.contains c || (bracketed && ",[]".toList.contains c)

def hexValue? (c : Char) : Option Nat :=
  if c.isDigit then some (c.toNat - 48)
  else if 'a' ≤ c ∧ c ≤ 'f' then some (c.toNat - 87)
  else if 'A' ≤ c ∧ c ≤ 'F' then some (c.toNat - 55)
  else none

def escapedByte? (c : Cursor) : Option Nat := do
  if !c.sees '%' then none
  let high ← c.peekAt 1 >>= hexValue?
  let low ← c.peekAt 2 >>= hexValue?
  return 16 * high + low

def escapedTail : (count : Nat) → Cursor → Option (List UInt8 × Cursor)
  | 0, c => some ([], c)
  | count + 1, c => do
    let byte ← escapedByte? c
    if byte < 0x80 ∨ 0xc0 ≤ byte then none
    let (bytes, c) ← escapedTail count (c.skip 3)
    return (UInt8.ofNat byte :: bytes, c)

/-- The bytes of a character that are all escaped. The first tells how many follow it; nothing more
is asked of them, so they need not be those of a character. -/
def escapedBytes? (c : Cursor) : Option (List UInt8 × Cursor) := do
  let byte ← escapedByte? c
  let count ←
    if byte < 0x80 then some 0
    else if byte < 0xc0 then none
    else if byte < 0xe0 then some 1
    else if byte < 0xf0 then some 2
    else if byte < 0xf8 then some 3
    else none
  let (bytes, c) ← escapedTail count (c.skip 3)
  return (UInt8.ofNat byte :: bytes, c)

def scanUri (bracketed : Bool) : (fuel : Nat) → Cursor → Except Fault (Tag × Cursor)
  | 0, c => .ok ([], c)
  | fuel + 1, c =>
    match c.peek.filter (isTagChar bracketed) with
    | none => .ok ([], c)
    | some '%' => do
      let some (bytes, c) := escapedBytes? c | .error (.malformed "tag")
      let (more, c) ← scanUri bracketed fuel c
      return (bytes ++ more, c)
    | some x => do
      let (more, c) ← scanUri bracketed fuel c.skip
      return (Tag.ofText (String.singleton x) ++ more, c)

def scanWholeUri (bracketed : Bool) (c : Cursor) : Except Fault (Tag × Cursor) := do
  let (tag, c) ← scanUri bracketed c.rest.length c
  if tag.isEmpty then throw (.malformed "tag")
  return (tag.beforeZero, c)

/-- An exclamation mark, the word behind it, and a second mark where there is one. -/
def scanHandle (c : Cursor) : String × Cursor :=
  let (word, c) := c.skip.takeWhile isWord
  if c.sees '!' then ("!" ++ word ++ "!", c.skip) else ("!" ++ word, c)

def isWholeHandle (handle : String) : Bool := handle != "!" && handle.endsWith "!"

/-- A tag's handle and the rest of it. A tag in angle brackets has no handle, and neither has a mark
that stands alone, which is a rest. -/
def scanTag (flow : Bool) (c : Cursor) : Except Fault (String × Tag × Cursor) := do
  let (handle, suffix, c) ←
    if c.peekAt 1 == some '<' then do
      let (suffix, c) ← scanWholeUri true (c.skip 2)
      if !c.sees '>' then throw (.malformed "tag")
      pure ("", suffix, c.skip)
    else do
      let (handle, c) := scanHandle c
      if isWholeHandle handle then
        let (suffix, c) ← scanWholeUri false c
        pure (handle, suffix, c)
      else
        let (more, c) ← scanUri false c.rest.length c
        let suffix := Tag.beforeZero ((Tag.ofText handle).drop 1 ++ more)
        pure (if suffix.isEmpty then ("", Tag.ofText "!", c) else ("!", suffix, c))
  if !Cursor.endsWord c.peek && !(flow && c.sees ',') then throw (.malformed "tag")
  return (handle, suffix, c)

inductive Directive where
  | version (major minor : Nat)
  | tagHandle (handle : String) (meaning : Tag)
  deriving DecidableEq, Repr, Inhabited

def scanVersionNumber (c : Cursor) : Except Fault (Nat × Cursor) :=
  let (digits, c) := c.takeWhile Char.isDigit
  if digits.isEmpty || digits.length > 9 then .error (.malformed "directive")
  else .ok (digits.toNat?.getD 0, c)

def scanVersion (c : Cursor) : Except Fault (Directive × Cursor) := do
  let (major, c) ← scanVersionNumber (c.skipWhile isBlank)
  if !c.sees '.' then throw (.malformed "directive")
  let (minor, c) ← scanVersionNumber c.skip
  return (.version major minor, c)

def scanTagHandle (c : Cursor) : Except Fault (Directive × Cursor) := do
  let c := c.skipWhile isBlank
  if !c.sees '!' then throw (.malformed "directive")
  let (handle, c) := scanHandle c
  if handle != "!" && !isWholeHandle handle || !c.atBlank then throw (.malformed "directive")
  let (meaning, c) ← scanWholeUri true (c.skipWhile isBlank)
  if !Cursor.endsWord c.peek then throw (.malformed "directive")
  return (.tagHandle handle meaning, c)

end ImageLinker.Yaml
