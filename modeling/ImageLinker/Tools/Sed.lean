import ImageLinker.Tools.Launching
import ImageLinker.Tools.Sed.Reader

/-! The tool that edits the lines of its input as a script says. -/
namespace ImageLinker.Tools.Sed

open Unix Action

/-- A line without its end, and whether the end was there. -/
structure Line where
  text : String := ""
  ended : Bool := true
  deriving DecidableEq, Repr, Inhabited

/-- What is printed behind a line before the next one is read. -/
inductive Pending where
  | text (s : String)
  | file (path : String)
  deriving DecidableEq, Repr, Inhabited

/-- How far a range of lines has come that has begun. -/
inductive Progress where
  | going (stop : Option Nat)
  | over
  deriving DecidableEq, Repr, Inhabited

structure Settings where
  quiet : Bool := false
  extended : Bool := false
  /-- Without a next line nothing is printed for a command that wants to add it. -/
  strict : Bool := false
  sandboxed : Bool := false
  plain : Bool := false
  separate : Bool := false
  inPlace : Bool := false
  unbuffered : Bool := false
  backup : String := ""
  mark : Char := '\n'
  width : Nat := 70
  deriving DecidableEq, Repr, Inhabited

structure Editor where
  tool : String
  command : String → Action String
  settings : Settings
  script : Script
  output : Output
  space : Line := {}
  held : Line := {}
  number : Nat := 0
  replaced : Bool := false
  pending : List Pending := []
  ranges : List (Nat × Progress) := []
  lastExpression : Option Regex.Finder := none
  source : Option Source := none
  path : String := "-"
  remaining : List String
  /-- What takes the place of the file that is being read, the newest text first. -/
  edited : List String := []
  openLines : List Target := []
  lineFiles : List (String × List Char) := []
  files : List (String × Output) := []
  status : Nat := 0
  missesInput : Bool := false
  deriving Inhabited

def Editor.flushAll (s : Editor) : Action Unit := do
  let _ ← s.output.flush
  s.files.forM fun (_, o) => do
    let _ ← o.flush

abbrev Editing (α : Type) := StateT Editor Action α

def giveUp (status : Nat) (text : String) : Editing α := do
  let s ← get
  s.flushAll
  complain s.tool text
  exit status

def Settings.add (s : Settings) (o : Output) (text : String) : Action Output := do
  let o ← o.add text
  if s.unbuffered then o.flush else return o

/-- Prints a text on a target. A line that has no end there yet gets one first. -/
def put (target : Target) (text : String) : Editing Unit := do
  let s ← get
  let isOpen := s.openLines.contains target
  let text := if isOpen then String.singleton s.settings.mark ++ text else text
  let s := { s with openLines := s.openLines.filter (· != target) }
  match target, s.settings.inPlace with
  | .output, true => set { s with edited := text :: s.edited }
  | .output, false | .standard, _ =>
    let output ← s.settings.add s.output text
    set { s with output }
  | .errors, _ =>
    let _ ← ask (.write 2 text)
    set s
  | .file path, _ =>
    let files ← s.files.mapM fun (name, o) =>
      if name = path then return (name, ← s.settings.add o text) else return (name, o)
    set { s with files }

def putLines (text : String) : Editing Unit := do
  let mark := (← get).settings.mark
  put .output (if text.endsWith "\n" then String.ofList (text.toList.dropLast ++ [mark]) else text)

def putLine (target : Target) (line : Line) : Editing Unit := do
  if line.ended then put target (line.text ++ String.singleton (← get).settings.mark)
  else
    put target line.text
    modify fun s => { s with openLines := target :: s.openLines }

def contentOf (path : String) : Action String := do
  match ← openOn fileDescriptor path .read with
  | .error _ => return ""
  | .ok _ =>
    let source : Source := { descriptor := fileDescriptor }
    return (← source.rest manyPieces []).1

/-- Prints what is pending. The input is being read on a descriptor of its own. -/
def flushPending : Editing Unit := do
  let pending := (← get).pending
  modify fun s => { s with pending := [] }
  pending.forM fun p => do
    match p with
    | .text text => put .output text
    | .file path =>
      put .output (← contentOf path)

def inputDescriptor : Nat := 4

/-- Puts what was printed in the place of the file that was read. -/
def storeEdited : Editing Unit := do
  let s ← get
  if s.settings.inPlace then
    let text := String.join s.edited.reverse
    let path := Text.decode s.path
    let _ ← changeFiles fun files => do
      let kept ← if s.settings.backup.isEmpty then pure files else do
        let bytes ← files.readBytes path
        files.writeBytes (path ++ Text.decode s.settings.backup) bytes
      kept.writeBytes path (Text.toBytes text)
    modify fun s => { s with edited := [], openLines := s.openLines.filter (· != .output) }

def closeInput : Editing Unit := do
  if (← get).source.isSome then
    storeEdited
    modify fun s => { s with source := none }

def Script.begun (s : Script) : List (Nat × Progress) :=
  s.instructions.toList.zipIdx.filterMap fun (i, index) =>
    match i.selection with
    | .range none _ => some (index, .going none)
    | _ => none

def restart : Editing Unit :=
  modify fun s => { s with number := 0, held := {}, ranges := s.script.begun, lineFiles := [] }

def openNext : (remaining : List String) → Editing Bool
  | [] => do
    modify fun s => { s with remaining := [] }
    return false
  | path :: rest => do
    modify fun s => { s with remaining := rest, path }
    let s ← get
    if s.settings.separate then restart
    let opened ← if path = "-" && !s.settings.inPlace then pure (Except.ok 0)
      else do
        match ← openOn inputDescriptor path .read with
        | .ok _ => pure (Except.ok inputDescriptor)
        | .error fault => pure (Except.error fault)
    match opened with
    | .ok descriptor =>
      modify fun s =>
        { s with
          source := some { descriptor, block := if s.settings.unbuffered then 1 else 4096 } }
      return true
    | .error fault =>
      complain s.tool ("can't read " ++ path ++ ": " ++ fault.reason)
      modify fun s => { s with missesInput := true }
      openNext rest

/-- Reads on until something is there or the input has ended. -/
def look (source : Source) : Editing Source := do
  if !source.buffer.isEmpty || source.ended then return source
  let source ← source.fill
  match source.fault with
  | some fault => giveUp 4 ("read error on " ++ (← get).path ++ ": " ++ fault.reason)
  | none => return source

/-- Whether no line comes any more, in this input or in all. -/
def isAtEnd : (fuel : Nat) → Editing Bool
  | 0 => return true
  | fuel + 1 => do
    let s ← get
    match s.source with
    | none =>
      if s.settings.separate then return s.remaining.isEmpty
      if ← openNext s.remaining then isAtEnd fuel else return true
    | some source =>
      let source ← look source
      modify fun s => { s with source := some source }
      if !source.buffer.isEmpty then return false
      if s.settings.separate || s.remaining.isEmpty then return true
      closeInput
      isAtEnd fuel

def isLast : Editing Bool := do isAtEnd ((← get).remaining.length + 2)

def nextLine? : (fuel : Nat) → Editing (Option Line)
  | 0 => return none
  | fuel + 1 => do
    let s ← get
    match s.source with
    | none => if ← openNext s.remaining then nextLine? fuel else return none
    | some source =>
      let source ← look source
      match ← source.line s.settings.mark manyPieces with
      | (some (text, ended), source) =>
        modify fun s => { s with source := some source }
        return some ⟨text, ended⟩
      | (none, _) =>
        closeInput
        nextLine? fuel

def readLine (adds : Bool) : Editing Bool := do
  flushPending
  let s ← get
  match ← nextLine? (s.remaining.length + 2) with
  | none => return false
  | some line =>
    modify fun s =>
      let front := if adds then s.space.text ++ String.singleton s.settings.mark else ""
      { s with
        space := { line with text := front ++ line.text }
        number := s.number + 1
        replaced := false }
    return true

def finder (e : Expression) : Editing Regex.Finder := do
  match e, (← get).lastExpression with
  | some f, _ =>
    modify fun s => { s with lastExpression := some f }
    return f
  | none, some f => return f
  | none, none => giveUp 1 "-e expression #1, char 0: no previous regular expression"

def fits : Address → Editing Bool
  | .line n => return (← get).number = n
  | .step first distance => do
    let n := (← get).number
    return first ≤ n && (n - first) % distance = 0
  | .last => isLast
  | .matching e => do
    let f ← finder e
    return f.matches? (← get).space.text

/-- The line at which a range ends that begins here, if that can be told by now. -/
def lastLine? (number : Nat) : RangeEnd → Option Nat
  | .address (.line n) => some n
  | .address (.step first distance) =>
    if first ≤ number && (number - first) % distance = 0 then some number else none
  | .address _ => none
  | .offset n => some (number + n)
  | .multiple factor => some (if factor = 0 then number else (number / factor + 1) * factor)

/-- Whether a range begins at the present line. One that begins at a numbered line does so behind
that line if the line was passed over. -/
def begins : Address → Editing Bool
  | .line n => return n ≤ (← get).number
  | a => fits a

def keepProgress (index : Nat) (p : Option Progress) : Editing Unit :=
  modify fun s =>
    let others := s.ranges.filter (·.1 != index)
    { s with ranges := (p.map fun p => (index, p)).toList ++ others }

/-- What becomes of a range that has ended. One that began at a numbered line is over. -/
def ended : (first : Option Address) → Option Progress
  | some (.line _) | none => some .over
  | _ => none

/-- Whether the present line belongs to a range that has begun before, which may end here. A range
up to a numbered line does not reach beyond that line; other ranges reach the first line that is
looked at then. -/
def isInside (index : Nat) (first : Option Address) (stop : Option Nat) (last : RangeEnd) :
    Editing Bool := do
  let number := (← get).number
  let isEnd ← match stop, last with
    | some n, _ => pure (n ≤ number : Bool)
    | none, .address a => fits a
    | none, _ => pure false
  if isEnd then keepProgress index (ended first)
  match last with
  | .address (.line n) => return number ≤ n
  | _ => return true

def selects (index : Nat) (i : Instruction) : Editing Bool := do
  let chosen ← match i.selection with
    | .all => pure true
    | .single a => fits a
    | .range first last => do
      match (← get).ranges.lookup index, first with
      | some (.going stop), _ => isInside index first stop last
      | some .over, _ | none, none => pure false
      | none, some a =>
        if ← begins a then
          let number := (← get).number
          let stop := lastLine? number last
          let goesOn := stop.all (number < ·)
          keepProgress index (if goesOn then some (.going stop) else ended first)
          match a, last with
          | .line n, .address (.line m) => pure (n == number || number ≤ m)
          | _, _ => pure true
        else pure false
  return chosen != i.negated

def changeCase (c : LetterCase) (x : Char) : Char :=
  match c with
  | .asIs => x
  | .upper => x.toUpper
  | .lower => x.toLower

/-- What a match is replaced by. The letters are changed as parts say, the next one first of all. -/
def replacement (m : Regex.Found) : (all : LetterCase) → (next : LetterCase) → List Part → List Char
  | _, _, [] => []
  | all, next, .change c onlyNext :: rest =>
    if onlyNext then replacement m all c rest else replacement m c next rest
  | all, next, .text s :: rest => add all next s rest
  | all, next, .group 0 :: rest => add all next m.text rest
  | all, next, .group n :: rest => add all next ((m.finish.groups.lookup n).getD []) rest
where
  add (all next : LetterCase) (cs : List Char) (rest : List Part) : List Char :=
    match cs with
    | [] => replacement m all next rest
    | c :: cs =>
      changeCase (if next == .asIs then all else next) c ::
        (cs.map (changeCase all) ++ replacement m all .asIs rest)

/-- Puts replacements in the place of matches, of which the first begins at or behind an index. -/
def replaceFrom (parts : List Part) : (index : Nat) → (rest : List Char) → List Regex.Found →
    List (List Char)
  | _, rest, [] => [rest]
  | index, rest, m :: more =>
    rest.take (m.start.index - index) :: replacement m .asIs .asIs parts ::
      replaceFrom parts m.finish.index m.finish.rest more

def substituted (f : Regex.Finder) (s : Substitution) (text : String) : Option String :=
  let found := if s.all then f.allMatches text else f.firstMatches s.number text
  match found.drop (s.number - 1) with
  | [] => none
  | chosen => some (String.ofList (replaceFrom s.parts 0 text.toList chosen).flatten)

def shownCharacter (c : Char) : String :=
  match c with
  | '\\' => "\\\\"
  | '\x07' => "\\a"
  | '\x08' => "\\b"
  | '\x0c' => "\\f"
  | '\n' => "\\n"
  | '\r' => "\\r"
  | '\t' => "\\t"
  | '\x0b' => "\\v"
  | c =>
    if ' ' ≤ c && c ≤ '~' then String.singleton c
    else
      let digits := Nat.toDigits 8 c.toNat
      "\\" ++ String.ofList (List.replicate (3 - digits.length) '0' ++ digits)

/-- A line in characters that can be seen, in pieces that are not too wide and have an end each. -/
def shownLine (width : Nat) (mark : Char) (text : String) : String :=
  let (pieces, _) := text.toList.foldl (fun (pieces, column) c =>
    let shown := shownCharacter c
    if width != 0 && width - 1 < column + shown.length then
      (shown :: String.ofList ['\\', mark] :: pieces, shown.length)
    else (shown :: pieces, column + shown.length)) (([] : List String), 0)
  String.join pieces.reverse ++ String.ofList ['$', mark]

/-- What comes after a command. -/
inductive Flow where
  | goesOn (index : Nat)
  | ends (prints : Bool)
  | restarts
  | quits (prints : Bool)
  deriving DecidableEq, Repr, Inhabited

def firstLine (s : Editor) : Line :=
  let all := s.space.text.toList
  let first := all.takeWhile (· != s.settings.mark)
  if first.length < all.length then ⟨String.ofList first, true⟩ else s.space

/-- Puts the output of the present text, done as a command, in its place. -/
def runSpace : Editing Unit := do
  let s ← get
  let printed := (← s.command s.space.text).toList
  let kept := if printed.getLast? == some s.settings.mark then printed.dropLast else printed
  modify fun s => { s with space := { s.space with text := String.ofList kept } }

def substitute (s : Substitution) : Editing Unit := do
  let f ← finder s.expression
  let line := (← get).space
  match substituted f s line.text with
  | none => pure ()
  | some text =>
    modify fun e => { e with space := { line with text }, replaced := true }
    if s.prints && s.printsFirst then putLine .output { line with text }
    if s.runs then runSpace
    let line := (← get).space
    if s.prints && !s.printsFirst then putLine .output line
    match s.target with
    | some target => putLine target line
    | none => pure ()

def takeLineOf (path : String) : Editing Unit := do
  let cs ← match (← get).lineFiles.lookup path with
    | some cs => pure cs
    | none => pure (← contentOf path).toList
  let mark := (← get).settings.mark
  let found := cs.takeWhile (· != mark)
  let line := cs.take (found.length + 1)
  modify fun s =>
    { s with
      lineFiles := (path, cs.drop line.length) :: s.lineFiles.filter (·.1 != path)
      pending := s.pending ++ if line.isEmpty then [] else [.text (String.ofList line)] }

def perform (index : Nat) : Command → Editing Flow
  | .block _ | .nothing => return .goesOn (index + 1)
  | .branch kind name => do
    let s ← get
    let taken := match kind with
      | .always => true
      | .ifReplaced => s.replaced
      | .unlessReplaced => !s.replaced
    if kind != .always then set { s with replaced := false }
    if !taken then return .goesOn (index + 1)
    if name.isEmpty then return .ends true
    return .goesOn ((s.script.labels.lookup name).getD s.script.instructions.size)
  | .append text => do
    modify fun s => { s with pending := s.pending ++ [.text text] }
    return .goesOn (index + 1)
  | .insert text => do
    putLines text
    return .goesOn (index + 1)
  | .change text => do
    let goesOn := match (← get).ranges.lookup index with
      | some (.going _) => true
      | _ => false
    if !goesOn then putLines text
    return .ends false
  | .delete => return .ends false
  | .deleteFirst => do
    let s ← get
    let line := s.space
    match line.text.toList.dropWhile (· != s.settings.mark) with
    | [] => return .ends false
    | _ :: rest =>
      modify fun s => { s with space := { line with text := String.ofList rest } }
      return .restarts
  | .hold adds => do
    modify fun s =>
      let mark := String.singleton s.settings.mark
      { s with held := if adds then { s.space with text := s.held.text ++ mark ++ s.space.text }
                       else s.space }
    return .goesOn (index + 1)
  | .get adds => do
    modify fun s =>
      let mark := String.singleton s.settings.mark
      { s with space := if adds then { s.held with text := s.space.text ++ mark ++ s.held.text }
                        else s.held }
    return .goesOn (index + 1)
  | .swap => do
    modify fun s => { s with space := s.held, held := s.space }
    return .goesOn (index + 1)
  | .show width => do
    let s ← get
    put .output (shownLine (width.getD s.settings.width) s.settings.mark s.space.text)
    return .goesOn (index + 1)
  | .next adds => do
    let s ← get
    if ← isLast then return .ends (!(adds && s.settings.strict))
    if !adds && !s.settings.quiet then putLine .output s.space
    if ← readLine adds then return .goesOn (index + 1) else return .ends adds
  | .print => do
    putLine .output (← get).space
    return .goesOn (index + 1)
  | .printFirst => do
    putLine .output (firstLine (← get))
    return .goesOn (index + 1)
  | .lineNumber => do
    putLines (toString (← get).number ++ "\n")
    return .goesOn (index + 1)
  | .run none => do
    runSpace
    modify fun s => { s with space := { s.space with ended := true } }
    return .goesOn (index + 1)
  | .run (some text) => do
    put .output (← (← get).command text)
    return .goesOn (index + 1)
  | .fileName => do
    putLines ((← get).path ++ "\n")
    return .goesOn (index + 1)
  | .clear => do
    modify fun s => { s with space := { s.space with text := "" } }
    return .goesOn (index + 1)
  | .quit status prints => do
    modify fun s => { s with status, pending := if prints then s.pending else [] }
    return .quits prints
  | .readFile path => do
    modify fun s => { s with pending := s.pending ++ [.file path] }
    return .goesOn (index + 1)
  | .readLine path => do
    takeLineOf path
    return .goesOn (index + 1)
  | .write target onlyFirst => do
    let s ← get
    putLine target (if onlyFirst then firstLine s else s.space)
    return .goesOn (index + 1)
  | .substitute s => do
    substitute s
    return .goesOn (index + 1)
  | .transliterate pairs => do
    modify fun s =>
      let text := String.ofList (s.space.text.toList.map fun c => (pairs.lookup c).getD c)
      { s with space := { s.space with text } }
    return .goesOn (index + 1)

def instructionTime : Nat := 500

def runFrom : (fuel : Nat) → (index : Nat) → Editing Flow
  | 0, _ => return .quits false
  | fuel + 1, index => do
    let s ← get
    match s.script.instructions[index]? with
    | none => return .ends true
    | some i =>
      let _ ← ask (.work instructionTime)
      let chosen ← selects index i
      match i.command, chosen with
      | .block finish, false => runFrom fuel finish
      | _, false => runFrom fuel (index + 1)
      | c, true =>
        match ← perform index c with
        | .goesOn next => runFrom fuel next
        | flow => return flow

def finishLine (prints : Bool) : Editing Unit := do
  let s ← get
  if prints && !s.settings.quiet then putLine .output s.space
  flushPending

def cycles : (fuel : Nat) → (reads : Bool) → Editing Unit
  | 0, _ => return ()
  | fuel + 1, reads => do
    let goesOn ← if reads then readLine false else pure true
    if goesOn then
      match ← runFrom manyPieces 0 with
      | .ends prints =>
        finishLine prints
        cycles fuel true
      | .restarts =>
        flushPending
        cycles fuel false
      | .quits prints =>
        finishLine prints
        if prints && (← get).openLines.contains .output then put .output ""
        match (← get).source with
        | some source =>
          let _ ← source.giveBack
        | none => pure ()
        closeInput
      | .goesOn _ => pure ()

def kinds : List OptionKind :=
  [⟨'n', "quiet", .nothing⟩, ⟨'n', "silent", .nothing⟩, ⟨'e', "expression", .text⟩,
    ⟨'f', "file", .text⟩, ⟨'E', "regexp-extended", .nothing⟩, ⟨'r', "", .nothing⟩,
    ⟨'i', "in-place", .textIfJoined⟩, ⟨'l', "line-length", .text⟩, ⟨'s', "separate", .nothing⟩,
    ⟨'u', "unbuffered", .nothing⟩, ⟨'z', "null-data", .nothing⟩, ⟨'b', "binary", .nothing⟩,
    ⟨'\x01', "posix", .nothing⟩, ⟨'\x00', "debug", .nothing⟩, ⟨'\x02', "sandbox", .nothing⟩,
    ⟨'\x00', "follow-symlinks", .nothing⟩]

def usage (tool : String) : String :=
  "Usage: " ++ tool ++ " [OPTION]... \x7bscript-only-if-no-other-script\x7d [input-file]...\n"

def pieces (tool : String) (o : Options) : Action (List String × List String) := do
  let given ← o.given.filterMapM fun (c, text) => do
    if c = 'e' then return some text
    if c != 'f' then return none
    match ← openInput text with
    | .ok source =>
      let (text, _) ← source.rest manyPieces []
      return some (if text.endsWith "\n" then String.ofList text.toList.dropLast else text)
    | .error fault =>
      complain tool ("couldn't open file " ++ text ++ ": " ++ fault.reason)
      exit 4
  match given, o.operands with
  | [], [] =>
    let _ ← ask (.write 2 (usage tool))
    exit 1
  | [], script :: paths => return ([script], paths)
  | given, paths => return (given, paths)

def settings (isStrict : Bool) (o : Options) (pieces : List String) : Settings :=
  let first := ((pieces.head?.getD "").splitOn "\n").head?
  { quiet := o.has 'n' || first == some "#n"
    extended := o.has 'E' || o.has 'r'
    strict := isStrict || o.has '\x01'
    sandboxed := o.has '\x02'
    plain := o.has '\x01'
    separate := o.has 's' || o.has 'i'
    inPlace := o.has 'i'
    unbuffered := o.has 'u'
    backup := (o.value? 'i').getD ""
    mark := if o.has 'z' then '\x00' else '\n'
    width := ((o.value? 'l').bind (·.toNat?)).getD 70 }

/-- Where in pieces with one character between them a place lies: the number of the piece and of the
character. -/
def locate : (number : Nat) → (place : Nat) → List String → Nat × Nat
  | number, place, p :: q :: rest =>
    if place ≤ p.length then (number, place)
    else locate (number + 1) (place - p.length - 1) (q :: rest)
  | number, place, _ => (number, place)

def openTargets (tool : String) (paths : List String) : Action (List (String × Output)) :=
  paths.zipIdx.mapM fun (path, n) => do
    let descriptor := inputDescriptor + 1 + n
    match ← openOn descriptor path .write with
    | .ok _ => return (path, { tool, failure := 4, descriptor })
    | .error fault =>
      complain tool ("couldn't open file " ++ path ++ ": " ++ fault.reason)
      exit 4

/-- Reads a script and opens the files that it writes to. They are opened even if the script turns
out to be bad behind the place where they are named. -/
def readScript (tool : String) (s : Settings) (pieces : List String) :
    Action (Script × List (String × Output)) := do
  let text := "\n".intercalate pieces
  match Reader.script s.extended s.sandboxed s.plain s.mark text with
  | .ok script =>
    let files ← openTargets tool script.files
    match script.missingLabel? with
    | none => return (script, files)
    | some name =>
      complain tool ("can't find label for jump to \x60" ++ name ++ "'")
      exit 4
  | .error fault =>
    let _ ← openTargets tool fault.files
    if fault.isGeneral then
      complain tool fault.message
      exit 4
    let (number, place) := match fault.left with
      | some left => locate 1 (text.length - left) pieces
      | none => (pieces.length, 0)
    complain tool s!"-e expression #{number}, char {place}: {fault.message}"
    exit 1

def program : Program := fun exec c => do
  let isStrict := (c.valueOf? strictVariable).isSome
  match Options.read kinds (!isStrict) c.arguments with
  | .error text =>
    complain c.name text
    let _ ← ask (.write 2 (usage c.name))
    return 1
  | .ok o =>
    let (pieces, paths) ← pieces c.name o
    let settings := settings isStrict o pieces
    let (script, files) ← readScript c.name settings pieces
    if settings.inPlace && paths.isEmpty then
      complain c.name "no input files"
      exit 4
    let start : Editor :=
      { tool := c.name, settings, script, files
        output := { tool := c.name, failure := 4 }
        command := outputOf exec c.environment
        ranges := script.begun
        remaining := if paths.isEmpty then ["-"] else paths }
    let (_, s) ← (cycles manyPieces true).run start
    s.flushAll
    return if s.missesInput then 2 else s.status

end ImageLinker.Tools.Sed
