import ImageLinker.Shell.Reader

/-!
Reading words. A word may hold commands, whose reader is given to the readers of words.
-/
namespace ImageLinker.Shell.Read

def isMeta (c : Char) : Bool := " \t\n;&|<>()".toList.contains c

def isSpecial (c : Char) : Bool := "@*#?$!-".toList.contains c

/-- Where a word or a part of it is read, which decides what ends it and what a backslash hides. -/
inductive Context where
  | bare
  | mark
  | doubleQuoted (inBraces : Bool)
  /-- The word in braces behind a parameter. Between double quotes in quotes a brace ends
  nothing. -/
  | braced (quoted inner : Bool)
  | document
  | arithmetic (depth : Nat)
  deriving DecidableEq, Repr, Inhabited

namespace Context

def isQuoted : Context → Bool
  | .bare | .mark => false
  | .doubleQuoted _ | .document | .arithmetic _ => true
  | .braced quoted _ => quoted

def ends (c : Context) (rest : List Char) : Bool :=
  match c, rest with
  | _, [] => true
  | .bare, x :: _ | .mark, x :: _ => isMeta x
  | .doubleQuoted _, x :: _ => x == '"'
  | .braced _ inner, x :: _ => x == '\x7d' && !inner
  | .document, _ => false
  | .arithmetic depth, x :: y => depth == 0 && x == ')' && y.head? == some ')'

def openFault? : Context → Option SyntaxFault
  | .bare | .mark | .document => none
  | .doubleQuoted _ | .braced true _ => some .openQuote
  | .braced false _ => some .openBrace
  | .arithmetic _ => some .openArithmetic

/-- Whether a backslash takes its meaning away from a character. -/
def escapes (c : Context) (x : Char) : Bool :=
  match c with
  | .bare | .mark | .braced false _ => true
  | .doubleQuoted inBraces => "$\x60\"\\".toList.contains x || (inBraces && x == '\x7d')
  | .braced true _ => "$\x60\"\\\x7d".toList.contains x
  | .document => "$\x60\\".toList.contains x
  | .arithmetic _ => "$\x60\"\\".toList.contains x

def quotes : Context → Bool
  | .bare | .mark | .braced false _ => true
  | _ => false

def inBraces : Context → Bool
  | .braced .. => true
  | _ => false

def ofWord (c : Context) (isPattern : Bool) : Context := .braced (c.isQuoted && !isPattern) false

def after (c : Context) (x : Char) : Context :=
  match c, x with
  | .arithmetic depth, '(' => .arithmetic (depth + 1)
  | .arithmetic depth, ')' => .arithmetic (depth - 1)
  | c, _ => c

end Context

/-- The text between backquotes, of which backslashes in front of some signs are taken away. -/
def backquoted (inQuotes : Bool) : (fuel : Nat) → (text : List Char) → Read String
  | 0, _ => fail .openBackquote
  | fuel + 1, text => do
    joints
    match ← peek with
    | none => fail .openBackquote
    | some '\x60' =>
      advance
      return String.ofList text.reverse
    | some '\\' =>
      match ← peekAt 1 with
      | some c =>
        advance 2
        if c == '$' || c == '\x60' || c == '\\' || (inQuotes && c == '"') then
          backquoted inQuotes fuel (c :: text)
        else backquoted inQuotes fuel (c :: '\\' :: text)
      | none => fail .openBackquote
    | some c =>
      advance
      backquoted inQuotes fuel (c :: text)

/-- A name, a number or a sign in braces, or none if no parameter is named so. -/
def bracedName? : Read (Option String) := do
  joints
  match ← peek with
  | some c =>
    if isNameStart c then return some (← takeWhile isNameRest)
    else if c.isDigit then return some (← takeWhile Char.isDigit)
    else if isSpecial c then
      advance
      return some (String.singleton c)
    else return none
  | none => return none

/-- The pieces between double quotes. They make a word even if they are empty; only all parameters
may be none. -/
def quotedPieces (inner : List Piece) : List Piece :=
  match inner with
  | [.parameter "@" true] => inner
  | _ => .literal "" true :: inner

/-! Commands in a word go on up to a closing parenthesis, or to the end of the text. -/

variable (commands : (closed : Bool) → Read Command)

mutual

def pieces (context : Context) : (fuel : Nat) → Read Word
  | 0 => fail .tooDeep
  | fuel + 1 => do
    joints
    let rest := (← get).rest
    let quoted := context.isQuoted
    if context.ends rest then
      match rest, context.openFault? with
      | [], some fault => fail fault
      | _, _ => return []
    match rest with
    | '\\' :: c :: _ =>
      advance 2
      let piece := if context.escapes c then Piece.literal (String.singleton c) true
        else .literal (String.ofList ['\\', c]) true
      return piece :: (← pieces context fuel)
    | ['\\'] =>
      advance
      return [.literal "\\" true]
    | '$' :: _ =>
      if context = .mark then plain context fuel '$'
      else
        advance
        let piece ← dollar context fuel
        return piece :: (← pieces context fuel)
    | '\x60' :: _ =>
      if context = .mark then plain context fuel '\x60'
      else
        advance
        let text ← backquoted quoted ((← get).rest.length + 1) []
        -- Lines between backquotes are counted anew.
        let c ← apart 1 text (commands false)
        return .output c quoted :: (← pieces context fuel)
    | '\'' :: _ =>
      if !context.quotes then plain context fuel '\''
      else
        advance
        let text ← takeWhile (· != '\'')
        if !(← accept "'") then fail .openQuote
        return .literal text true :: (← pieces context fuel)
    | '"' :: _ =>
      match context with
      | .braced true inner =>
        advance
        pieces (.braced true !inner) fuel
      | .bare | .mark | .braced false _ =>
        advance
        let inner ← pieces (.doubleQuoted context.inBraces) fuel
        let _ ← accept "\""
        return quotedPieces inner ++ (← pieces context fuel)
      | _ => plain context fuel '"'
    | c :: _ => plain context fuel c
    | [] => return []

def plain (context : Context) : (fuel : Nat) → Char → Read Word
  | 0, _ => fail .tooDeep
  | fuel + 1, c => do
    advance
    return .literal (String.singleton c) context.isQuoted :: (← pieces (context.after c) fuel)

def dollar (context : Context) : (fuel : Nat) → Read Piece
  | 0 => fail .tooDeep
  | fuel + 1 => do
    let quoted := context.isQuoted
    joints
    match ← peek with
    | some '(' =>
      advance
      joints
      if ← accept "(" then
        let expression ← pieces (.arithmetic 0) fuel
        advance 2
        return .arithmetic expression quoted
      else
        let inner ← commands true
        return .output inner quoted
    | some '\x7b' =>
      advance
      braced context fuel
    | some c =>
      if isNameStart c then return .parameter (← takeWhile isNameRest) quoted
      else if c.isDigit || isSpecial c then
        advance
        return .parameter (String.singleton c) quoted
      else return .literal "$" quoted
    | none => return .literal "$" quoted

/-- Reads a parameter in braces whose opening brace has been read. -/
def braced (context : Context) : (fuel : Nat) → Read Piece
  | 0 => fail .tooDeep
  | fuel + 1 => do
    let quoted := context.isQuoted
    joints
    if (← peek) = some '#' then
      let next ← peekAt 1
      let isLength := match next, ← peekAt 2 with
        | some c, after => isNameRest c || (c != '\x7d' && after == some '\x7d')
        | none, _ => false
      if isLength then
        advance
        match ← bracedName? with
        | some name =>
          if ← accept "\x7d" then return .length name quoted
          else malformed context fuel
        | none => malformed context fuel
      else
        advance
        behindName context fuel "#"
    else
      match ← bracedName? with
      | some name => behindName context fuel name
      | none => malformed context fuel

/-- Goes past an expansion that means nothing. -/
def malformed (context : Context) : (fuel : Nat) → Read Piece
  | 0 => fail .tooDeep
  | fuel + 1 => do
    let _ ← pieces (context.ofWord false) fuel
    let _ ← accept "\x7d"
    return .malformed

/-- Reads the operator behind a parameter in braces, and its word. -/
def behindName (context : Context) : (fuel : Nat) → (name : String) → Read Piece
  | 0, _ => fail .tooDeep
  | fuel + 1, name => do
    let quoted := context.isQuoted
    joints
    if ← accept "\x7d" then return .parameter name quoted
    let colon ← accept ":"
    joints
    let word := fun (isPattern : Bool) => do
      let word ← pieces (context.ofWord isPattern) fuel
      let _ ← accept "\x7d"
      return word
    match colon, ← peek with
    | _, some '-' =>
      advance
      return .substituted name .useDefault colon (← word false) quoted
    | _, some '=' =>
      advance
      return .substituted name .assignDefault colon (← word false) quoted
    | _, some '+' =>
      advance
      return .substituted name .useAlternative colon (← word false) quoted
    | _, some '?' =>
      advance
      return .substituted name .fail colon (← word false) quoted
    | false, some '#' =>
      advance
      joints
      let longest ← accept "#"
      return .trimmed name (.start longest) (← word true) quoted
    | false, some '%' =>
      advance
      joints
      let longest ← accept "%"
      return .trimmed name (.finish longest) (← word true) quoted
    | _, _ => malformed context fuel

end

def joinLiterals : Word → Word
  | .literal a p :: rest =>
    match joinLiterals rest with
    | .literal b q :: more =>
      if p = q then .literal (a ++ b) p :: more else .literal a p :: .literal b q :: more
    | joined => .literal a p :: joined
  | piece :: rest => piece :: joinLiterals rest
  | [] => []

def isQuotedPiece : Piece → Bool
  | .literal _ quoted => quoted
  | _ => false

def wordIn (context : Context) : Read (Word × Bool) := do
  let read ← pieces commands context (8 * (← get).rest.length + 8)
  return (joinLiterals read, read.any isQuotedPiece)

def wordText (w : Word) : String :=
  String.join (w.map fun
    | .literal text _ => text
    | _ => "")

def isJoined (line : List Char) : Bool := (line.reverse.takeWhile (· == '\\')).length % 2 == 1

/-- Takes lines up to the one that is the mark. Behind a joined line none is the mark. -/
def documentLines (stripTabs joins : Bool) (mark : List Char) :
    (fuel : Nat) → (afterJoint : Bool) → List Char → (lines : List (List Char)) →
    List Char × List Char
  | 0, _, cs, lines => (lines.reverse.flatten, cs)
  | fuel + 1, afterJoint, cs, lines =>
    let line := cs.takeWhile (· != '\n')
    let rest := cs.drop line.length
    let shown := if stripTabs then line.dropWhile (· == '\t') else line
    if shown = mark ∧ !afterJoint then (lines.reverse.flatten, rest.drop 1)
    else
      match rest with
      | [] => ((shown :: lines).reverse.flatten, [])
      | _ :: rest =>
        documentLines stripTabs joins mark fuel (joins && isJoined line) rest
          ((shown ++ ['\n']) :: lines)

/-- Takes a document out of the text. It begins behind the line end that the given reader finds. -/
def takeDocument (toLineEnd : Read Unit) (stripTabs joins : Bool) (mark : String) :
    Read String := do
  let r ← get
  let below := match toLineEnd.run { r with kept := none } with
    | .ok (_, after) => after.rest
    | .error _ => (r.rest.dropWhile (· != '\n')).drop 1
  let thisLine := r.rest.take (r.rest.length - below.length)
  let (text, rest) := documentLines stripTabs joins mark.toList (below.length + 1) false below []
  set { r with
    rest := thisLine ++ rest
    linesTaken := r.linesTaken + (below.count '\n' - rest.count '\n') }
  return String.ofList text

def documentPieces (text : String) : Read Word := do
  let work := pieces commands .document (8 * text.length + 8)
  return joinLiterals (← apart (← get).line text work)

end ImageLinker.Shell.Read
