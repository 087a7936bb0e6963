import ImageLinker.Shell.Reader.Words

/-!
Reading commands. A script is read and done line by line, so a fault does not undo what stands
before it.
-/
namespace ImageLinker.Shell

namespace Token

def name : Token → String
  | .ending => "end of file"
  | .lineEnd => "newline"
  | .semicolon => "\";\""
  | .background => "\"&\""
  | .conjunction => "\"&&\""
  | .disjunction => "\"||\""
  | .pipe => "\"|\""
  | .opening => "\"(\""
  | .closing => "\")\""
  | .branchEnd => "\";;\""
  | .keyword text => "\"" ++ text ++ "\""
  | .word .. => "word"
  | .redirection .. => "redirection"

def endsList : Token → Bool
  | .ending | .closing | .branchEnd => true
  | .keyword text =>
    ["do", "done", "elif", "else", "esac", "fi", "then", "\x7d"].contains text
  | _ => false

def isKeyword (t : Token) (text : String) : Bool :=
  match t with
  | .keyword other => other == text
  | _ => false

end Token

def keywords : List String :=
  ["!", "case", "do", "done", "elif", "else", "esac", "fi", "for", "if", "in", "then", "until",
    "while", "\x7b", "\x7d"]

/-- The commands that belong to the language itself. No function has the name of one. -/
def specialNames : List String :=
  [".", ":", "break", "continue", "eval", "exec", "exit", "export", "local", "readonly", "return",
    "set", "shift", "times", "trap", "unset"]

namespace Read

def unexpected (t : Token) (expected : Option Token := none) : Read α :=
  fail (.unexpected t.name (expected.map Token.name))

def putBack (t : Token) : Read Unit := modify fun r => { r with kept := some t }

def want (wanted : Wanted) : Read Unit := modify fun r => { r with wanted }

variable (commands : (closed : Bool) → Read Command)

def redirectionSign (descriptor : Option Nat) : Read Token := do
  if ← accept "<" then
    joints
    let n := descriptor.getD 0
    if ← accept "<" then
      joints
      return .redirection n .hereText (← accept "-")
    if ← accept "&" then return .redirection n .duplicate false
    if ← accept ">" then return .redirection n .readWrite false
    return .redirection n .read false
  else
    advance
    joints
    let n := descriptor.getD 1
    if ← accept ">" then return .redirection n .append false
    if ← accept "|" then return .redirection n .overwrite false
    if ← accept "&" then return .redirection n .duplicate false
    return .redirection n .write false

def wordToken : Read Token := do
  let (w, quoted) ← wordIn commands .bare
  let next ← peek
  match w, next.any fun c => c == '<' || c == '>' with
  | [.literal text false], true =>
    match text.toList with
    | [c] => if c.isDigit then redirectionSign (some (c.toNat - 48)) else return .word w quoted
    | _ => return .word w quoted
  | _, _ => return .word w quoted

/-- The next token, whatever it may be taken for. -/
def rawToken : Read Token := do
  if let some t := (← get).kept then
    modify fun r => { r with kept := none }
    return t
  blanks
  match ← peek with
  | none => return .ending
  | some '\n' =>
    advance
    return .lineEnd
  | some '&' =>
    advance
    joints
    return if ← accept "&" then .conjunction else .background
  | some '|' =>
    advance
    joints
    return if ← accept "|" then .disjunction else .pipe
  | some ';' =>
    advance
    joints
    return if ← accept ";" then .branchEnd else .semicolon
  | some '(' =>
    advance
    return .opening
  | some ')' =>
    advance
    return .closing
  | some '<' | some '>' => redirectionSign none
  | some _ => wordToken commands

/-- Forgets aliases whose texts have been read. Tells whether one of them ended in a blank. -/
def closeAliases : Read Bool := do
  let r ← get
  if r.openAliases.isEmpty || r.kept.isSome then return false
  blanks
  let left := (← get).rest.length
  let (closed, stillOpen) := r.openAliases.partition (left ≤ ·.left)
  modify fun r => { r with openAliases := stillOpen }
  return closed.any (·.endsBlank)

def alias? (name : String) : Read (Option String) := do
  let r ← get
  if r.openAliases.any (·.name == name) then return none
  return r.aliases.lookup name

def openAlias (name text : String) : Read Unit := modify fun r =>
  { r with
    rest := text.toList ++ r.rest
    openAliases := ⟨name, r.rest.length, text.toList.getLast?.any fun c => c == ' ' || c == '\t'⟩ ::
      r.openAliases }

def tokenFor : (fuel : Nat) → Wanted → Read Token
  | 0, _ => fail .tooDeep
  | fuel + 1, wanted => do
    let afterAlias ← closeAliases
    let wanted := { wanted with aliases := wanted.aliases || afterAlias }
    match ← rawToken commands with
    | .lineEnd => if wanted.skipLines then tokenFor fuel wanted else return .lineEnd
    | .word [.literal text false] false =>
      if wanted.keywords && keywords.contains text then return .keyword text
      let value ← if wanted.aliases then alias? text else pure none
      match value with
      | some value =>
        openAlias text value
        tokenFor fuel wanted
      | none => return .word [.literal text false] false
    | t => return t

def token : Read Token := do
  let r ← get
  let t ← tokenFor commands (r.rest.length + 8 * r.aliases.length + 2) r.wanted
  want {}
  return t

def skipLine : (fuel : Nat) → Read Unit
  | 0 => return
  | fuel + 1 => do
    match ← rawToken commands with
    | .ending | .lineEnd => return
    | _ => skipLine fuel

def redirectionTarget (descriptor : Nat) (kind : RedirectionKind) (stripTabs : Bool) :
    Read Redirection := do
  if kind = .hereText then
    blanks
    if ((← peek).map isMeta).getD true then unexpected (← token commands)
    let (mark, quoted) ← wordIn commands .mark
    let length := (← get).rest.length
    let text ← takeDocument (skipLine commands (length + 1)) stripTabs (!quoted) (wordText mark)
    let body ← if quoted then pure [.literal text true] else documentPieces commands text
    return .mk descriptor .hereText body
  else
    match ← token commands with
    | .word w _ => return .mk descriptor kind w
    | t => unexpected t

inductive ListKind where
  | line
  | nonEmpty
  | any
  deriving DecidableEq, Repr, Inhabited

def joined : Option Command → Command → Command
  | none, c => c
  | some a, c => .sequence a c

def inBackground (line : Nat) : Command → Command
  | .pipeline cs _ => .pipeline cs true
  | .redirected line c rs => .background line c rs
  | c => .background line c []

def withRedirections (line : Nat) (c : Command) (rs : List Redirection) : Command :=
  match c, rs with
  | c, [] => c
  | .subshell line c _, rs => .subshell line c rs
  | c, rs => .redirected line c rs

def commandWanted : Wanted := { keywords := true, aliases := true }

def commandOnAnyLine : Wanted := { skipLines := true, keywords := true, aliases := true }

def redirections : (fuel : Nat) → Read (List Redirection)
  | 0 => fail .tooDeep
  | fuel + 1 => do
    want commandWanted
    match ← token commands with
    | .redirection n kind strip =>
      let r ← redirectionTarget commands n kind strip
      return r :: (← redirections fuel)
    | t =>
      putBack t
      return []

def wordsFrom : (fuel : Nat) → Read (List Word × Token)
  | 0 => fail .tooDeep
  | fuel + 1 => do
    match ← token commands with
    | .word w _ =>
      let (ws, t) ← wordsFrom fuel
      return (w :: ws, t)
    | t => return ([], t)

def patternWord : Token → Word
  | .word w _ => w
  | .keyword text => [.literal text false]
  | _ => []

def patterns : (fuel : Nat) → Token → Read (List Word)
  | 0, _ => fail .tooDeep
  | fuel + 1, first => do
    match ← token commands with
    | .pipe => return patternWord first :: (← patterns fuel (← token commands))
    | .closing => return [patternWord first]
    | t => unexpected t (some .closing)

def expectKeyword (text : String) : Read Unit := do
  let t ← token commands
  if !t.isKeyword text then unexpected t (some (.keyword text))

mutual

/-- Reads commands up to what ends their list, behind those that have been read. There is none at
the end of the text, and where the list may be empty. -/
def list (kind : ListKind) : (fuel : Nat) → Option Command → Read (Option Command)
  | 0, _ => fail .tooDeep
  | fuel + 1, before => do
    let commands := nested fuel
    want (if kind = .line then commandWanted else commandOnAnyLine)
    match ← token commands with
    | .lineEnd => return some (before.getD .nothing)
    | .ending =>
      putBack .ending
      return before
    | t =>
      putBack t
      if t.endsList && (kind = .any || (kind = .nonEmpty && before.isSome)) then return before
      let line := (← get).line
      let c ← conjunctions fuel
      match ← token commands with
      | .background => list kind fuel (some (joined before (inBackground line c)))
      | .semicolon => list kind fuel (some (joined before c))
      | .lineEnd =>
        putBack .lineEnd
        list kind fuel (some (joined before c))
      | .ending =>
        putBack .ending
        list kind fuel (some (joined before c))
      | t =>
        if kind = .line then unexpected t
        putBack t
        return some (joined before c)

def nested : (fuel : Nat) → (closed : Bool) → Read Command
  | 0, _ => fail .tooDeep
  | fuel + 1, closed => do
    let c ← list .any fuel none
    match ← token (nested fuel), closed with
    | .closing, true | .ending, false => return c.getD .nothing
    | t, _ => unexpected t (some (if closed then .closing else .ending))

def body : (fuel : Nat) → Read Command
  | 0 => fail .tooDeep
  | fuel + 1 => do return (← list .nonEmpty fuel none).getD .nothing

def conjunctions : (fuel : Nat) → Read Command
  | 0 => fail .tooDeep
  | fuel + 1 => do conjunctionsFrom fuel (← pipeline fuel)

/-- Goes on behind a command: both signs bind alike and to the left. -/
def conjunctionsFrom : (fuel : Nat) → Command → Read Command
  | 0, _ => fail .tooDeep
  | fuel + 1, c => do
    match ← token (nested fuel) with
    | .conjunction =>
      want commandOnAnyLine
      conjunctionsFrom fuel (.conjunction c (← pipeline fuel))
    | .disjunction =>
      want commandOnAnyLine
      conjunctionsFrom fuel (.disjunction c (← pipeline fuel))
    | t =>
      putBack t
      return c

def pipeline : (fuel : Nat) → Read Command
  | 0 => fail .tooDeep
  | fuel + 1 => do
    let t ← token (nested fuel)
    let negated := t.isKeyword "!"
    if negated then want commandWanted else putBack t
    let c ← match ← piped fuel with
      | [c] => pure c
      | cs => pure (.pipeline cs false)
    return if negated then .negation c else c

def piped : (fuel : Nat) → Read (List Command)
  | 0 => fail .tooDeep
  | fuel + 1 => do
    let c ← command fuel
    match ← token (nested fuel) with
    | .pipe =>
      want commandOnAnyLine
      return c :: (← piped fuel)
    | t =>
      putBack t
      return [c]

def command : (fuel : Nat) → Read Command
  | 0 => fail .tooDeep
  | fuel + 1 => do
    let commands := nested fuel
    let line := (← get).line
    match ← token commands with
    | .word w quoted =>
      putBack (.word w quoted)
      simple line fuel [] [] []
    | .redirection n kind strip =>
      putBack (.redirection n kind strip)
      simple line fuel [] [] []
    | t =>
      let c ← compound line fuel t
      return withRedirections line c (← redirections commands ((← get).rest.length + 1))

def compound (line : Nat) : (fuel : Nat) → Token → Read Command
  | 0, _ => fail .tooDeep
  | fuel + 1, t => do
    let commands := nested fuel
    match t with
    | .opening =>
      let c ← body fuel
      match ← token commands with
      | .closing => return .subshell line c []
      | t => unexpected t (some .closing)
    | .keyword "\x7b" =>
      let c ← body fuel
      expectKeyword commands "\x7d"
      return c
    | .keyword "if" =>
      let c ← conditional fuel
      expectKeyword commands "fi"
      return c
    | .keyword "while" => loop true fuel
    | .keyword "until" => loop false fuel
    | .keyword "for" =>
      let .word [.literal name false] false ← token commands | fail .loopVariable
      if !isName name then fail .loopVariable
      iteration line name fuel
    | .keyword "case" =>
      match ← token commands with
      | .word w _ =>
        want commandOnAnyLine
        expectKeyword commands "in"
        return .selection line w (← branches fuel)
      | t => unexpected t (some (.word [] false))
    | t => unexpected t

def conditional : (fuel : Nat) → Read Command
  | 0 => fail .tooDeep
  | fuel + 1 => do
    let condition ← body fuel
    expectKeyword (nested fuel) "then"
    let thenPart ← body fuel
    let t ← token (nested fuel)
    if t.isKeyword "elif" then return .conditional condition thenPart (← conditional fuel)
    if t.isKeyword "else" then return .conditional condition thenPart (← body fuel)
    putBack t
    return .conditional condition thenPart .nothing

def loop (whileSucceeds : Bool) : (fuel : Nat) → Read Command
  | 0 => fail .tooDeep
  | fuel + 1 => do
    let condition ← body fuel
    return .loop whileSucceeds condition (← loopBody fuel)

def loopBody : (fuel : Nat) → Read Command
  | 0 => fail .tooDeep
  | fuel + 1 => do
    expectKeyword (nested fuel) "do"
    let c ← body fuel
    expectKeyword (nested fuel) "done"
    return c

/-- Reads an iteration behind its name. Without words it goes over the positional parameters. -/
def iteration (line : Nat) (name : String) : (fuel : Nat) → Read Command
  | 0 => fail .tooDeep
  | fuel + 1 => do
    let commands := nested fuel
    want commandOnAnyLine
    let t ← token commands
    let words ← if t.isKeyword "in" then do
        let (words, t) ← wordsFrom commands ((← get).rest.length + 1)
        match t with
        | .lineEnd | .semicolon => pure words
        | t => unexpected t
      else do
        match t with
        | .semicolon => pure ()
        | t => putBack t
        pure [[.parameter "@" true]]
    want commandOnAnyLine
    return .iteration line name words (← loopBody fuel)

def branches : (fuel : Nat) → Read (List (List Word × Command))
  | 0 => fail .tooDeep
  | fuel + 1 => do
    let commands := nested fuel
    want { skipLines := true, keywords := true }
    let t ← token commands
    if t.isKeyword "esac" then return []
    let first ← match t with
      | .opening => token commands
      | t => pure t
    let ps ← patterns commands ((← get).rest.length + 1) first
    let c := (← list .any fuel none).getD .nothing
    want { skipLines := true, keywords := true }
    match ← token commands with
    | .branchEnd => return (ps, c) :: (← branches fuel)
    | t =>
      if t.isKeyword "esac" then return [(ps, c)]
      unexpected t (some .branchEnd)

def simple (line : Nat) : (fuel : Nat) → List (String × Word) → List Word → List Redirection →
    Read Command
  | 0, _, _, _ => fail .tooDeep
  | fuel + 1, assignments, words, rs => do
    let commands := nested fuel
    want { aliases := words.isEmpty }
    match ← token commands with
    | .word w _ =>
      match if words.isEmpty then w.assignment? else none with
      | some a => simple line fuel (assignments ++ [a]) words rs
      | none => simple line fuel assignments (words ++ [w]) rs
    | .redirection n kind strip =>
      let r ← redirectionTarget commands n kind strip
      simple line fuel assignments words (rs ++ [r])
    | t =>
      match t, assignments, words, rs with
      | .opening, [], [w], [] =>
        match ← token commands with
        | .closing => definition w fuel
        | t => unexpected t (some .closing)
      | t, _, _, _ =>
        putBack t
        return .simple line assignments words rs

def definition (name : Word) : (fuel : Nat) → Read Command
  | 0 => fail .tooDeep
  | fuel + 1 => do
    match Word.plainText? name with
    | some name =>
      if !isName name || specialNames.contains name then fail .functionName
      let line := (← get).line
      want commandOnAnyLine
      return .definition line name (← command fuel)
    | none => fail .functionName

end

end Read

def Reader.document (text : String) : Word :=
  match (Read.documentPieces (Read.nested (16 * text.length + 64)) text).run { rest := [] } with
  | .ok (w, _) => w
  | .error _ => [.literal text true]

def Reader.next (r : Reader) : Except LocatedFault (Option (Command × Reader)) := do
  let fuel := 16 * r.rest.length + 64
  let (c, r) ← (Read.list .line fuel none).run { r with kept := none, wanted := {} }
  return c.map (·, r)

end ImageLinker.Shell
