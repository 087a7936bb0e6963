import ImageLinker.Tools.Sed.Script

/-! Reading scripts of edits. -/
namespace ImageLinker.Tools.Sed.Reader

open Unix

/-- What is wrong with a script, and how much of it was left then. -/
structure Fault where
  left : Option Nat
  message : String
  files : List String := []
  isGeneral : Bool := false
  deriving DecidableEq, Repr, Inhabited

/-- How expressions are written, and what is left of a script. -/
structure State where
  rest : List Char
  extended : Bool := false
  sandboxed : Bool := false
  strict : Bool := false
  files : List String := []
  mark : Char := '\n'
  instructions : Array Instruction := #[]
  labels : List (String × Nat) := []
  blocks : List Nat := []
  deriving Inhabited

abbrev Reading (α : Type) := StateT State (Except Fault) α

def fail (message : String) : Reading α := do
  let s ← get
  throw { left := some s.rest.length, message, files := s.files }

def peek? : Reading (Option Char) := return (← get).rest.head?

def next? : Reading (Option Char) := do
  let s ← get
  match s.rest with
  | c :: rest =>
    set { s with rest }
    return some c
  | [] => return none

def takeWhile (p : Char → Bool) : Reading (List Char) := do
  let s ← get
  let taken := s.rest.takeWhile p
  set { s with rest := s.rest.drop taken.length }
  return taken

def isBlank (c : Char) : Bool := Text.isSpace c && c != '\n'

def skipBlanks : Reading Unit := do
  let _ ← takeWhile isBlank

def number : Reading Nat := return (Text.decimal? (← takeWhile Char.isDigit)).getD 0

def refuseIfStrict (complaint : String) : Reading Unit := do
  if (← get).strict then fail complaint

/-- Characters up to the bracket that ends a set, behind those that are done, and what follows.
Nothing in a set ends anything else. -/
def inSet : (first : Bool) → (named : Option Char) → (done : List Char) → List Char →
    Option (List Char × List Char)
  | _, _, _, [] | _, _, _, '\n' :: _ => none
  | _, some k, done, c :: ']' :: rest =>
    if c == k then inSet false none (']' :: c :: done) rest
    else inSet false (some k) (c :: done) (']' :: rest)
  | _, some k, done, c :: rest => inSet false (some k) (c :: done) rest
  | first, none, done, ']' :: rest =>
    if first then inSet false none (']' :: done) rest else some (']' :: done, rest)
  | _, none, done, '[' :: k :: rest =>
    if [':', '.', '='].contains k then inSet false (some k) (k :: '[' :: done) rest
    else inSet false none ('[' :: done) (k :: rest)
  | _, none, done, '\\' :: 'n' :: rest => inSet false none ('\n' :: done) rest
  | _, none, done, c :: rest => inSet false none (c :: done) rest

/-- The text up to a mark that no backslash and no set hides, behind what is done, and what follows.
A hidden mark loses its backslash. -/
def upTo (mark : Char) (isExpression : Bool) : (fuel : Nat) → (done : List Char) → List Char →
    Option (List Char × List Char)
  | 0, _, _ | _, _, [] | _, _, '\n' :: _ => none
  | fuel + 1, done, c :: rest =>
    if c == mark then some (done.reverse, rest)
    else
      match c, rest with
      | '\\', 'n' :: more =>
        if isExpression then upTo mark isExpression fuel ('\n' :: done) more
        else upTo mark isExpression fuel ('n' :: '\\' :: done) more
      | '\\', x :: more =>
        let isHidden := x == '\n' || x == mark && (isExpression || mark != '&')
        upTo mark isExpression fuel (if isHidden then x :: done else x :: '\\' :: done) more
      | '[', _ =>
        if isExpression then
          let negated := rest.head? == some '^'
          let front := if negated then '^' :: c :: done else c :: done
          match inSet true none front (if negated then rest.drop 1 else rest) with
          | some (done, rest) => upTo mark isExpression fuel done rest
          | none => none
        else upTo mark isExpression fuel (c :: done) rest
      | _, _ => upTo mark isExpression fuel (c :: done) rest

def marked (mark : Char) (isExpression : Bool) (complaint : String) : Reading (List Char) := do
  let s ← get
  match upTo mark isExpression (s.rest.length + 1) [] s.rest with
  | some (text, rest) =>
    set { s with rest }
    return text
  | none =>
    set { s with rest := s.rest.dropWhile (· != '\n') }
    fail complaint

/-- The character that a backslash and what follows it stand for, if that is one of the characters
that are hard to write. -/
def character? : List Char → Option (Char × List Char)
  | 'a' :: rest => some ('\x07', rest)
  | 'f' :: rest => some ('\x0c', rest)
  | 'r' :: rest => some ('\r', rest)
  | 't' :: rest => some ('\t', rest)
  | 'v' :: rest => some ('\x0b', rest)
  | 'c' :: '\\' :: '\\' :: rest => some ('\x1c', rest)
  | 'c' :: c :: rest => some (Char.ofNat (c.toUpper.toNat ^^^ 64), rest)
  | 'd' :: rest => numbered 10 3 rest
  | 'o' :: rest => numbered 8 3 rest
  | 'x' :: rest => numbered 16 2 rest
  | _ => none
where
  numbered (radix count : Nat) (cs : List Char) : Option (Char × List Char) :=
    match Text.numberPrefix radix count none cs with
    | (some n, rest) => some (Char.ofNat (n % 256), rest)
    | (none, _) => none

def plainExpression : (fuel : Nat) → List Char → List Char
  | 0, cs => cs
  | _, [] => []
  | fuel + 1, '\\' :: rest =>
    match character? rest, rest with
    | some (c, rest), _ => c :: plainExpression fuel rest
    | none, c :: rest => '\\' :: c :: plainExpression fuel rest
    | none, [] => ['\\']
  | fuel + 1, c :: rest => c :: plainExpression fuel rest

/-- The parts of a replacement. Where it is to be plain no letter behind a backslash changes the
case of others. -/
def parts (plain : Bool) : (fuel : Nat) → (text : List Char) → List Char → List Part
  | 0, text, _ | _, text, [] => [.text text.reverse]
  | fuel + 1, text, '&' :: rest => .text text.reverse :: .group 0 :: parts plain fuel [] rest
  | fuel + 1, text, '\\' :: rest =>
    match character? rest, rest with
    | some (c, rest), _ => parts plain fuel (c :: text) rest
    | none, c :: rest =>
      let add := fun (p : Part) => .text text.reverse :: p :: parts plain fuel [] rest
      match c, plain with
      | 'c', _ => parts plain fuel ('\\' :: text) rest
      | 'n', _ => parts plain fuel ('\n' :: text) rest
      | 'L', false => add (.change .lower false)
      | 'U', false => add (.change .upper false)
      | 'E', false => add (.change .asIs false)
      | 'l', false => add (.change .lower true)
      | 'u', false => add (.change .upper true)
      | c, _ => if c.isDigit then add (.group (c.toNat - 48)) else parts plain fuel (c :: text) rest
    | none, [] => [.text ('\\' :: text).reverse]
  | fuel + 1, text, c :: rest => parts plain fuel (c :: text) rest

/-- The lines of text that a command takes, up to an end of a line that no backslash hides. There
are none if the script ends with a backslash. -/
def lines : (fuel : Nat) → (done : List Char) → List Char → Option (List Char) × List Char
  | 0, done, rest => (some ('\n' :: done).reverse, rest)
  | _, done, [] => (some ('\n' :: done).reverse, [])
  | _, done, '\n' :: rest => (some ('\n' :: done).reverse, rest)
  | _, _, ['\\'] => (none, [])
  | fuel + 1, done, '\\' :: rest =>
    match character? rest, rest with
    | some (c, rest), _ => lines fuel (c :: done) rest
    | none, 'n' :: rest => lines fuel ('\n' :: done) rest
    | none, c :: rest => lines fuel (c :: done) rest
    | none, [] => (none, [])
  | fuel + 1, done, c :: rest => lines fuel (c :: done) rest

/-- An expression from its text. An empty one stands for the last one that was used, as it was. -/
def expression (text : List Char) (insensitive byLine : Bool) : Reading Expression := do
  if text.isEmpty then
    if insensitive || byLine then fail "cannot specify modifiers on empty regexp"
    return none
  let s ← get
  let dialect : Regex.Dialect :=
    { extended := s.extended, plain := s.strict, mark := if byLine then some s.mark else none }
  match Regex.read dialect (String.ofList (plainExpression text.length text)) with
  | .ok (regex, groups) => return some { regex, groups, insensitive }
  | .error .loneClass =>
    throw
      { left := none, message := RegexFault.loneClass.message, isGeneral := true
        files := (← get).files }
  | .error fault => fail fault.message

def addressExpression (mark : Char) : Reading Address := do
  let text ← marked mark true "unterminated address regex"
  let isStrict := (← get).strict
  let letters ← takeWhile fun c => !isStrict && (c == 'I' || c == 'M')
  return .matching (← expression text (letters.contains 'I') (letters.contains 'M'))

def address? : Reading (Option Address) := do
  match ← peek? with
  | some '$' =>
    let _ ← next?
    return some .last
  | some '/' =>
    let _ ← next?
    return some (← addressExpression '/')
  | some '\\' =>
    let _ ← next?
    match ← next? with
    | some mark => return some (← addressExpression mark)
    | none => fail "unexpected \x60,'"
  | some c =>
    if !c.isDigit then return none
    let first ← number
    skipBlanks
    if (← peek?) != some '~' || (← get).strict then return some (.line first)
    let _ ← next?
    skipBlanks
    let distance ← number
    return some (if distance = 0 then .line first else .step first distance)
  | none => return none

def rangeEnd : Reading RangeEnd := do
  match ← peek?, (← get).strict with
  | some '+', false =>
    let _ ← next?
    return .offset (← number)
  | some '~', false =>
    let _ ← next?
    return .multiple (← number)
  | _, _ =>
    match ← address? with
    | some a => return .address a
    | none =>
      let _ ← next?
      fail "unexpected \x60,'"

def selection : Reading Selection := do
  if (← peek?) == some '+' || (← peek?) == some '~' then
    let _ ← next?
    let _ ← number
    fail "invalid usage of +N or ~N as first address"
  match ← address? with
  | none => return .all
  | some first =>
    skipBlanks
    let isZero := first == .line 0
    if (← peek?) != some ',' then
      if isZero then
        let _ ← next?
        fail "invalid usage of line address 0"
      return .single first
    let _ ← next?
    skipBlanks
    let last ← rangeEnd
    skipBlanks
    let isExpression := match last with
      | .address (.matching _) => true
      | _ => false
    if isZero && (!isExpression || (← get).strict) then
      let _ ← next?
      fail "invalid usage of line address 0"
    return .range (if isZero then none else some first) last

/-- Nothing but a mark may follow a command on its line. -/
def endOfCommand : Reading Unit := do
  skipBlanks
  match ← peek? with
  | none | some '\x7d' | some '#' => return ()
  | some c =>
    let _ ← next?
    if c != '\n' && c != ';' then fail "extra characters after command"

def label : Reading String := do
  skipBlanks
  let name ← takeWhile fun c => !Text.isSpace c && c != ';' && c != '\x7d'
  return String.ofList name

def restOfLine : Reading (List Char) := do
  let text ← takeWhile (· != '\n')
  let _ ← next?
  return text

def refuseInSandbox : Reading Unit := do
  if (← get).sandboxed then fail "e/r/w commands disabled in sandbox mode"

def fileName : Reading String := do
  refuseInSandbox
  skipBlanks
  let name ← restOfLine
  if name.isEmpty then fail "missing filename in r/R/w/W commands"
  return String.ofList name

def target : Reading Target := do
  match ← fileName with
  | "/dev/stdout" => return .standard
  | "/dev/stderr" => return .errors
  | path =>
    modify fun s => { s with files := if s.files.contains path then s.files else s.files ++ [path] }
    return .file path

/-- The text that a command takes: behind it, or behind a backslash in the next line. A text that
ends with the script and a backslash is taken as it stands. -/
def textBlock : Reading String := do
  skipBlanks
  match ← peek? with
  | none => fail "expected \\ after \x60a', \x60c' or \x60i'"
  | some '\\' =>
    let _ ← next?
    let s ← get
    match s.rest.dropWhile isBlank with
    | '\n' :: rest => set { s with rest }
    | _ => pure ()
    if s.rest.isEmpty then
      refuseIfStrict incomplete
      return ""
  | some _ =>
    if (← get).strict then
      let _ ← next?
      fail "expected \\ after \x60a', \x60c' or \x60i'"
  let s ← get
  let (text, rest) := lines (s.rest.length + 1) [] s.rest
  set { s with rest }
  if text.isNone then refuseIfStrict incomplete
  return String.ofList (text.getD (s.rest.dropLast ++ ['\n']))
where
  incomplete : String := "incomplete command"

/-- The letters behind a substitution. -/
structure Flags where
  number : Option Nat := none
  all : Bool := false
  prints : Bool := false
  runs : Bool := false
  printsFirst : Bool := false
  insensitive : Bool := false
  byLine : Bool := false
  target : Option Target := none

def flags : (fuel : Nat) → Flags → Reading Flags
  | 0, f => return f
  | fuel + 1, f => do
    match ← peek? with
    | none | some '\x7d' | some '#' => return f
    | some c =>
      if c.isDigit then
        if f.number.isSome then
          let _ ← next?
          fail "multiple number options to \x60s' command"
        let n ← number
        if n = 0 then fail "number option to \x60s' command may not be zero"
        flags fuel { f with number := some n }
      else
        let _ ← next?
        match c with
        | '\n' | ';' => return f
        | 'i' | 'I' =>
          refuseIfStrict unknown
          flags fuel { f with insensitive := true }
        | 'm' | 'M' =>
          refuseIfStrict unknown
          flags fuel { f with byLine := true }
        | 'g' =>
          if f.all then fail "multiple \x60g' options to \x60s' command"
          flags fuel { f with all := true }
        | 'p' =>
          if f.prints then fail "multiple \x60p' options to \x60s' command"
          flags fuel { f with prints := true, printsFirst := !f.runs }
        | 'e' =>
          refuseIfStrict unknown
          refuseInSandbox
          flags fuel { f with runs := true }
        | 'w' => return { f with target := some (← target) }
        | c => if isBlank c then flags fuel f else fail unknown
where
  unknown : String := "unknown option to \x60s'"

def substitution : Reading Command := do
  let complaint := "unterminated \x60s' command"
  let mark ← match ← next? with
    | some mark => pure mark
    | none => fail complaint
  let text ← marked mark true complaint
  let replacement ← marked mark false complaint
  let f ← flags ((← get).rest.length + 1) {}
  let e ← expression text f.insensitive f.byLine
  let parts := parts (← get).strict (replacement.length + 1) [] replacement
  let groups := parts.filterMap fun p =>
    match p with
    | .group n => some n
    | _ => none
  match e, groups.find? fun n => (e.map (·.groups)).any (· < n) with
  | some _, some n => fail ("invalid reference \\" ++ toString n ++ " on \x60s' command's RHS")
  | _, _ => pure ()
  return .substitute
    { expression := e, parts, number := f.number.getD 1, all := f.all, prints := f.prints
      runs := f.runs, printsFirst := f.runs && f.printsFirst, target := f.target }

/-- The characters of a text in which a backslash hides another one. -/
def unescaped : (fuel : Nat) → List Char → List Char
  | 0, cs => cs
  | _, [] => []
  | fuel + 1, '\\' :: rest =>
    match character? rest, rest with
    | some (c, rest), _ => c :: unescaped fuel rest
    | none, 'n' :: rest => '\n' :: unescaped fuel rest
    | none, c :: rest => c :: unescaped fuel rest
    | none, [] => ['\\']
  | fuel + 1, c :: rest => c :: unescaped fuel rest

def transliteration : Reading Command := do
  let complaint := "unterminated \x60y' command"
  let mark ← match ← next? with
    | some mark => pure mark
    | none => fail complaint
  let source ← marked mark false complaint
  let source := unescaped source.length source
  let goal ← marked mark false complaint
  let goal := unescaped goal.length goal
  if source.length ≠ goal.length then
    fail "strings for \x60y' command are different lengths"
  endOfCommand
  return .transliterate (source.zip goal)

def argument? : Reading (Option Nat) := do
  skipBlanks
  let isStrict := (← get).strict
  let digits ← takeWhile fun c => !isStrict && c.isDigit
  endOfCommand
  return Text.decimal? digits

def simple? : Char → Option Command
  | '=' => some .lineNumber
  | 'd' => some .delete
  | 'D' => some .deleteFirst
  | 'F' => some .fileName
  | 'g' => some (.get false)
  | 'G' => some (.get true)
  | 'h' => some (.hold false)
  | 'H' => some (.hold true)
  | 'n' => some (.next false)
  | 'N' => some (.next true)
  | 'p' => some .print
  | 'P' => some .printFirst
  | 'x' => some .swap
  | 'z' => some .clear
  | _ => none

def version : List Nat := [4, 9]

def isNewer (wanted : List Nat) : Bool := version < wanted

def command (letter : Char) (s : Selection) : Reading Command := do
  if "eFLQRTvWz".contains letter then refuseIfStrict (unknownCommand letter)
  if isRange && "=ailr".contains letter then refuseIfStrict onlyOneAddress
  match simple? letter with
  | some c =>
    endOfCommand
    return c
  | none =>
    match letter with
    | '#' =>
      if s != .all then fail "comments don't accept any addresses"
      let _ ← restOfLine
      return .nothing
    | ':' =>
      if s != .all then fail ": doesn't want any addresses"
      let name ← label
      if name.isEmpty then fail "\":\" lacks a label"
      modify fun r => { r with labels := r.labels ++ [(name, r.instructions.size)] }
      return .nothing
    | '\x7b' =>
      modify fun r => { r with blocks := r.instructions.size :: r.blocks }
      return .block 0
    | '\x7d' =>
      match (← get).blocks with
      | [] => fail "unexpected \x60\x7d'"
      | start :: blocks =>
        if s != .all then fail "\x60\x7d' doesn't want any addresses"
        modify fun r =>
          { r with
            blocks
            instructions := r.instructions.modify start fun i =>
              { i with command := .block r.instructions.size } }
        endOfCommand
        return .nothing
    | 'a' => return .append (← textBlock)
    | 'i' => return .insert (← textBlock)
    | 'c' => return .change (← textBlock)
    | 'b' => return .branch .always (← label)
    | 't' => return .branch .ifReplaced (← label)
    | 'T' => return .branch .unlessReplaced (← label)
    | 'l' => return .show (← argument?)
    | 'q' | 'Q' =>
      if isRange then fail onlyOneAddress
      return .quit ((← argument?).getD 0) (letter == 'q')
    | 'r' => return .readFile (← fileName)
    | 'R' => return .readLine (← fileName)
    | 'w' => return .write (← target) false
    | 'W' => return .write (← target) true
    | 's' => substitution
    | 'y' => transliteration
    | 'e' =>
      refuseInSandbox
      skipBlanks
      match ← peek? with
      | none | some '\n' => return .run none
      | some _ =>
        let text ← textBlock
        return .run (some (String.ofList text.toList.dropLast))
    | 'v' =>
      let wanted := (← label).splitOn "."
      if isNewer (wanted.map fun n => (n.toNat?).getD 0) then fail "expected newer version of sed"
      endOfCommand
      return .nothing
    | c => fail (unknownCommand c)
where
  unknownCommand (c : Char) : String := "unknown command: \x60" ++ String.singleton c ++ "'"
  onlyOneAddress : String := "command only uses one address"
  isRange : Bool := match s with
    | .range .. => true
    | _ => false

def instruction : Reading Unit := do
  let s ← selection
  skipBlanks
  let negated := (← peek?) == some '!'
  if negated then
    let _ ← next?
    skipBlanks
    if (← peek?) == some '!' then
      let _ ← next?
      fail "multiple \x60!'s"
  match ← next? with
  | none => fail "missing command"
  | some letter =>
    if letter == '\n' || letter == ';' then fail "missing command"
    let c ← command letter s
    modify fun r => { r with instructions := r.instructions.push ⟨s, negated, c⟩ }

def instructions : (fuel : Nat) → Reading Unit
  | 0 => return ()
  | fuel + 1 => do
    let _ ← takeWhile fun c => Text.isSpace c || c == ';'
    if (← peek?).isSome then
      instruction
      instructions fuel

def script (extended sandboxed strict : Bool) (mark : Char) (text : String) :
    Except Fault Script := do
  let start : State := { rest := text.toList, extended, sandboxed, strict, mark }
  let ((), s) ← (instructions (text.length + 1)).run start
  if !s.blocks.isEmpty then
    throw { left := none, message := "unmatched \x60\x7b'", files := s.files }
  return ⟨s.instructions, s.labels, s.files⟩

end ImageLinker.Tools.Sed.Reader
