import ImageLinker.Unix.Text

/-!
Texts in quotes: those from which a shell reads them back, and those with a backslash in front of
what does not show.
-/
namespace ImageLinker.Unix.Quoting

def letter? : Char → Option Char
  | '\x07' => some 'a'
  | '\x08' => some 'b'
  | '\t' => some 't'
  | '\n' => some 'n'
  | '\x0b' => some 'v'
  | '\x0c' => some 'f'
  | '\r' => some 'r'
  | _ => none

def isShown (c : Char) : Bool := ' ' ≤ c && c ≤ '~'

def octal (n : Nat) : List Char :=
  let ds := Nat.toDigits 8 n
  List.replicate (3 - ds.length) '0' ++ ds

def escaped (c : Char) : List Char :=
  match letter? c with
  | some x => ['\\', x]
  | none => '\\' :: octal c.toNat

/-- Whether a character means something to a shell at the start of a text, or anywhere in it. -/
def isSpecial (isAlone isFirst : Bool) (c : Char) : Bool :=
  if c == '\x7b' || c == '\x7d' then isAlone
  else if c == '#' || c == '~' then isFirst
  else !isShown c || " !\"$&()*;<=>[^\x60|'\\?".toList.contains c

/-- Whether a character means nothing between double quotes. -/
def isPlain (isAlone isFirst : Bool) (c : Char) : Bool :=
  if c == '\x7b' || c == '\x7d' then isAlone
  else if c == '#' || c == '~' then isFirst
  else isShown c && !"!\"$&()*;<=>[^\x60|\\?".toList.contains c

/-- The characters between quotes. Those that are not shown stand in quotes of another kind; `open_`
tells whether such quotes are open. -/
def body (open_ : Bool) : List Char → List Char
  | [] => []
  | c :: cs =>
    if c == '\'' then '\'' :: '\\' :: '\'' :: '\'' :: body false cs
    else if isShown c then (if open_ then ['\'', '\''] else []) ++ c :: body false cs
    else (if open_ then [] else ['\'', '$', '\'']) ++ escaped c ++ body true cs

def allChars (p : (isFirst : Bool) → Char → Bool) : List Char → Bool
  | [] => true
  | c :: rest => p true c && rest.all (p false)

def inQuotes (text : String) : String :=
  let cs := text.toList
  if cs.contains '\'' && allChars (isPlain (cs.length == 1)) cs then "\"" ++ text ++ "\""
  else "'" ++ String.ofList (body false cs) ++ "'"

/-- A text from which a shell reads the given one. A text that means only itself has no quotes. -/
def reusable (text : String) : String :=
  let cs := text.toList
  let means := fun isFirst c => !isSpecial (cs.length == 1) isFirst c
  if !cs.isEmpty && allChars means cs then text else inQuotes text

/-- The name of a file in front of a colon, with quotes if it would not be plain without. -/
def fileName (text : String) : String :=
  if text.toList.contains ':' then inQuotes text else reusable text

/-- A text in single quotes, with a backslash in front of quotes, of backslashes and of what stands
for characters that do not show. -/
def literal (text : String) : String :=
  let shown := fun c =>
    if c == '\'' || c == '\\' then ['\\', c] else if isShown c then [c] else escaped c
  "'" ++ String.ofList (text.toList.flatMap shown) ++ "'"

end ImageLinker.Unix.Quoting
