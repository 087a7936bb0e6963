import ImageLinker.Tools.Basic
import ImageLinker.Tools.Regex

/-! The tool that prints the lines that match an expression. -/
namespace ImageLinker.Tools.Grep

open Unix Action

inductive PatternKind where
  | basic
  | extended
  | fixed
  deriving DecidableEq, Repr, Inhabited

structure Request where
  kind : PatternKind := .basic
  patterns : List String := []
  insensitive : Bool := false
  wholeWord : Bool := false
  wholeLine : Bool := false
  inverted : Bool := false
  counts : Bool := false
  onlyMatches : Bool := false
  quiet : Bool := false
  /-- Only the names of files with a chosen line are printed, or of those without one. -/
  names : Option Bool := none
  numbers : Bool := false
  offsets : Bool := false
  withName : Option Bool := none
  silent : Bool := false
  isText : Bool := false
  skipsBinary : Bool := false
  recursive : Bool := false
  skipsDirectories : Bool := false
  zeroNames : Bool := false
  limit : Option Nat := none
  /-- How many lines around a chosen one are printed; groups of lines are told apart if it is
  said. -/
  before : Option Nat := none
  after : Option Nat := none
  separator : Option String := some "--"
  mark : Char := '\n'
  /-- A tab stands between what is in front of a line and the line. -/
  aligns : Bool := false
  label : String := "(standard input)"
  deriving DecidableEq, Repr, Inhabited

def kinds : List OptionKind :=
  [⟨'E', "extended-regexp", .nothing⟩, ⟨'F', "fixed-strings", .nothing⟩,
    ⟨'G', "basic-regexp", .nothing⟩, ⟨'P', "perl-regexp", .nothing⟩, ⟨'e', "regexp", .text⟩,
    ⟨'f', "file", .text⟩, ⟨'i', "ignore-case", .nothing⟩, ⟨'y', "", .nothing⟩,
    ⟨'\x01', "no-ignore-case", .nothing⟩, ⟨'v', "invert-match", .nothing⟩,
    ⟨'w', "word-regexp", .nothing⟩, ⟨'x', "line-regexp", .nothing⟩, ⟨'c', "count", .nothing⟩,
    ⟨'\x02', "color", .textIfJoined⟩, ⟨'\x02', "colour", .textIfJoined⟩,
    ⟨'L', "files-without-match", .nothing⟩, ⟨'l', "files-with-matches", .nothing⟩,
    ⟨'m', "max-count", .text⟩, ⟨'o', "only-matching", .nothing⟩, ⟨'q', "quiet", .nothing⟩,
    ⟨'q', "silent", .nothing⟩, ⟨'s', "no-messages", .nothing⟩, ⟨'b', "byte-offset", .nothing⟩,
    ⟨'H', "with-filename", .nothing⟩, ⟨'h', "no-filename", .nothing⟩, ⟨'\x03', "label", .text⟩,
    ⟨'n', "line-number", .nothing⟩, ⟨'T', "initial-tab", .nothing⟩, ⟨'Z', "null", .nothing⟩,
    ⟨'A', "after-context", .text⟩, ⟨'B', "before-context", .text⟩, ⟨'C', "context", .text⟩,
    ⟨'a', "text", .nothing⟩, ⟨'\x04', "binary-files", .text⟩, ⟨'d', "directories", .text⟩,
    ⟨'I', "", .nothing⟩, ⟨'r', "recursive", .nothing⟩, ⟨'R', "dereference-recursive", .nothing⟩,
    ⟨'U', "binary", .nothing⟩, ⟨'z', "null-data", .nothing⟩,
    ⟨'\x05', "line-buffered", .nothing⟩, ⟨'D', "devices", .text⟩,
    ⟨'\x06', "group-separator", .text⟩, ⟨'\x07', "no-group-separator", .nothing⟩] ++
    ("0123456789".toList.map fun c => { letter := c })

structure OptionFault where
  text : String
  status : Nat := 2
  deriving DecidableEq, Repr, Inhabited

def contextLength (text : String) : Except OptionFault Nat :=
  match Text.decimal? text.toList with
  | some n => .ok n
  | none => .error ⟨text ++ ": invalid context length argument", 2⟩

def hint (tool : String) : String :=
  "Usage: " ++ tool ++ " [OPTION]... PATTERNS [FILE]...\nTry '" ++ tool ++
    " --help' for more information."

def directoryActions : List String := ["read", "recurse", "skip"]

def option (tool : String) (r : Request) : Char × String → Except OptionFault Request
  | ('E', _) | ('P', _) => .ok { r with kind := .extended }
  | ('F', _) => .ok { r with kind := .fixed }
  | ('G', _) => .ok { r with kind := .basic }
  | ('e', text) => .ok { r with patterns := r.patterns ++ text.splitOn "\n" }
  | ('i', _) | ('y', _) => .ok { r with insensitive := true }
  | ('\x01', _) => .ok { r with insensitive := false }
  | ('v', _) => .ok { r with inverted := true }
  | ('w', _) => .ok { r with wholeWord := true }
  | ('x', _) => .ok { r with wholeLine := true }
  | ('c', _) => .ok { r with counts := true }
  | ('L', _) => .ok { r with names := some false }
  | ('l', _) => .ok { r with names := some true }
  | ('m', text) =>
    match Text.integer? text with
    | some n => .ok { r with limit := if n < 0 then none else some n.toNat }
    | none => .error ⟨"invalid max count", 2⟩
  | ('o', _) => .ok { r with onlyMatches := true }
  | ('q', _) => .ok { r with quiet := true }
  | ('s', _) => .ok { r with silent := true }
  | ('b', _) => .ok { r with offsets := true }
  | ('H', _) => .ok { r with withName := some true }
  | ('h', _) => .ok { r with withName := some false }
  | ('\x03', text) => .ok { r with label := text }
  | ('n', _) => .ok { r with numbers := true }
  | ('T', _) => .ok { r with aligns := true }
  | ('Z', _) => .ok { r with zeroNames := true }
  | ('A', text) => do return { r with after := some (← contextLength text) }
  | ('B', text) => do return { r with before := some (← contextLength text) }
  | ('C', text) => do
    let n ← contextLength text
    return { r with before := some n, after := some n }
  | ('a', _) => .ok { r with isText := true }
  | ('\x04', text) =>
    if ["binary", "text", "without-match"].contains text then
      .ok { r with isText := text == "text", skipsBinary := text == "without-match" }
    else .error ⟨"unknown binary-files type", 2⟩
  | ('I', _) => .ok { r with skipsBinary := true }
  | ('d', text) =>
    if directoryActions.contains text then
      .ok { r with recursive := text == "recurse", skipsDirectories := text == "skip" }
    else
      let actions := String.join (directoryActions.map fun a => "  - " ++ Quoting.literal a ++ "\n")
      .error ⟨"invalid argument " ++ Quoting.literal text ++ " for '--directories'\n" ++
        "Valid arguments are:\n" ++ actions ++ hint tool, 1⟩
  | ('r', _) | ('R', _) => .ok { r with recursive := true }
  | ('D', text) => if ["read", "skip"].contains text then .ok r
    else .error ⟨"unknown devices method", 2⟩
  | ('\x06', text) => .ok { r with separator := some text }
  | ('\x07', _) => .ok { r with separator := none }
  | ('z', _) => .ok { r with mark := '\x00' }
  | _ => .ok r

/-- The number that letters that are digits make up, which asks for lines around chosen ones. -/
def withDigits (o : Options) (r : Request) : Request :=
  match Text.decimal? ((o.given.map (·.1)).filter Char.isDigit) with
  | some n => { r with before := some n, after := some n }
  | none => r

/-- The expression of a pattern. Places between characters are repeated only where no more than
whole lines is asked for, and no group is referred back to. -/
def regexOf (r : Request) (pattern : String) : Regex.Reading Regex := do
  let dialect : Regex.Dialect := { extended := r.kind == .extended, lenient := true }
  if r.kind == .fixed then return Regex.literal pattern
  let (strict, _) ← Regex.read dialect pattern
  if r.onlyMatches || strict.refersBack then return strict
  return (← Regex.read { dialect with repeatsPlaces := true } pattern).1

def behindSet (inside : List Char) : List Char :=
  match Regex.readSet inside with
  | .ok (_, rest) => rest
  | .error _ => inside

/-- The signs of repetition that have nothing but places between characters in front of them. -/
def startingSigns : (fuel : Nat) → (atStart inBounds : Bool) → List Char → List String
  | 0, _, _, _ | _, _, _, [] => []
  | fuel + 1, atStart, _, '\\' :: c :: rest =>
    startingSigns fuel (atStart && Regex.isPlace (Regex.escaped c)) false rest
  | fuel + 1, _, _, '(' :: rest | fuel + 1, _, _, '|' :: rest => startingSigns fuel true false rest
  | fuel + 1, _, false, '[' :: inside => startingSigns fuel false false (behindSet inside)
  | fuel + 1, true, true, c :: rest => startingSigns fuel true (c != '\x7d') rest
  | fuel + 1, true, false, '\x7b' :: rest =>
    if (Regex.readBounds true rest).toBool then
      "\x7b...\x7d" :: startingSigns fuel true true rest
    else startingSigns fuel false false rest
  | fuel + 1, atStart, _, c :: rest =>
    if atStart && (c == '^' || c == '$') then startingSigns fuel true false rest
    else if atStart && "*+?".toList.contains c then
      String.singleton c :: startingSigns fuel true false rest
    else startingSigns fuel false false rest

def finders (r : Request) : Regex.Reading (List Regex.Finder) :=
  r.patterns.mapM fun pattern => do
    let regex ← regexOf r pattern
    let regex := if r.wholeLine then .sequence (.start none) (.sequence regex (.finish none))
      else if r.wholeWord then .sequence (.clear true) (.sequence regex (.clear false))
      else regex
    return { regex, insensitive := r.insensitive }

/-- The matches in a line: of those that begin first, the longest, and so on behind it. -/
def matchesFrom (fs : List Regex.Finder) : (fuel : Nat) → Regex.Place → List Regex.Found
  | 0, _ => []
  | fuel + 1, p =>
    let better := fun (a b : Regex.Found) =>
      a.start.index < b.start.index ||
        (a.start.index == b.start.index && b.finish.index ≤ a.finish.index)
    match (fs.filterMap (·.search? p)) with
    | [] => []
    | m :: more =>
      let best := more.foldl (fun a b => if better a b then a else b) m
      if best.finish.index = best.start.index then
        if best.start.rest.isEmpty then [] else matchesFrom fs fuel best.start.next
      else best :: matchesFrom fs fuel { best.finish with groups := [] }

/-- What is being found in one file. -/
structure Search where
  output : Output
  finders : List Regex.Finder
  name : String
  showsName : Bool
  number : Nat := 0
  offset : Nat := 0
  chosen : Nat := 0
  /-- Lines that may have to be printed in front of the next one that is chosen, the newest
  first. -/
  waiting : List (Nat × Nat × String) := []
  /-- How many lines are still printed behind a chosen one. -/
  following : Nat := 0
  lastPrinted : Nat := 0
  isBinary : Bool := false
  stops : Bool := false

/-- Whether nothing but an answer is needed, so that the first chosen line ends the search. -/
def needsOne (r : Request) : Bool := r.quiet || r.names.isSome

def showsLines (r : Request) : Bool := !(r.quiet || r.names.isSome || r.counts)

def front (r : Request) (s : Search) (sign : Char) (number offset : Nat) (isEmpty : Bool) :
    String :=
  let sign := String.singleton sign
  let text := (if s.showsName then s.name ++ (if r.zeroNames then "\x00" else sign) else "") ++
    (if r.numbers then toString number ++ sign else "") ++
    (if r.offsets then toString offset ++ sign else "")
  if r.aligns && !text.isEmpty && !isEmpty then text ++ "\t" else text

def beginLine (r : Request) (s : Search) (number : Nat) : Action Search := do
  let isApart := s.lastPrinted != 0 && s.lastPrinted + 1 < number
  let output ← match isApart && (r.before.isSome || r.after.isSome), r.separator with
    | true, some text => s.output.add (text ++ "\n")
    | _, _ => pure s.output
  return { s with output, lastPrinted := number }

def printLine (r : Request) (s : Search) (sign : Char) (number offset : Nat) (line : String) :
    Action Search := do
  let s ← beginLine r s number
  let text := front r s sign number offset line.isEmpty ++ line ++ String.singleton r.mark
  return { s with output := ← s.output.add text }

def printMatches (r : Request) (s : Search) (line : String) : Action Search := do
  if r.inverted then return s
  let s ← beginLine r s s.number
  let found := matchesFrom s.finders (line.length + 1) (Regex.Place.ofText line)
  let output ← found.foldlM (fun (o : Output) m =>
    o.add (front r s ':' s.number (s.offset + m.start.index) false ++ String.ofList m.text ++
      String.singleton r.mark)) s.output
  return { s with output }

def printChosen (r : Request) (s : Search) (line : String) : Action Search := do
  if r.onlyMatches then printMatches r s line
  else
    let s ← s.waiting.reverse.foldlM (fun s (number, offset, line) =>
      printLine r s '-' number offset line) { s with waiting := [] }
    printLine r s ':' s.number s.offset line

def step (r : Request) (s : Search) (line : String) : Action Search := do
  let s := { s with number := s.number + 1 }
  let isChosen := !s.stops && (s.finders.any (·.matches? line)) != r.inverted
  let shows := showsLines r && !s.isBinary
  let s ←
    if isChosen then
      let s := { s with chosen := s.chosen + 1 }
      let s ← if shows then printChosen r s line else pure s
      let stops := needsOne r || r.limit == some s.chosen || s.isBinary && showsLines r
      pure { s with stops, following := r.after.getD 0 }
    else if s.following != 0 && shows && !r.onlyMatches then
      let s ← printLine r s '-' s.number s.offset line
      pure { s with following := s.following - 1 }
    else
      let waiting := ((s.number, s.offset, line) :: s.waiting).take (r.before.getD 0)
      pure { s with waiting, following := 0 }
  return { s with offset := s.offset + line.length + 1 }

/-- Looks at the lines of an input, until enough is known. -/
def lines (r : Request) : (fuel : Nat) → Search → Source → Action (Search × Source)
  | 0, s, source => return (s, source)
  | fuel + 1, s, source => do
    if s.stops && needsOne r then return (s, source)
    if s.stops && (s.following = 0 || !showsLines r) then return (s, ← source.giveBack)
    match ← source.line r.mark manyPieces with
    | (none, source) => return (s, source)
    | (some (line, _), source) =>
      let isBinary := s.isBinary || (!r.isText && r.mark == '\n' && line.toList.contains '\x00')
      let s ← step r { s with isBinary } line
      lines r fuel s source

/-- How a search went on so far. -/
structure State where
  output : Output
  found : Bool := false
  failed : Bool := false

def searchInput (tool : String) (r : Request) (fs : List Regex.Finder) (showsName : Bool)
    (path : String) (source : Source) (st : State) : Action State := do
  let name := if path = "-" then r.label else path
  if r.limit != some 1 && !r.counts && !needsOne r && (← ownOutput? source).isSome then
    let output ← st.output.flush
    complain tool (name ++ ": input file is also the output")
    return { st with output, failed := true }
  -- The first piece tells whether the input is text.
  let source ← source.fill
  match source.fault with
  | some fault =>
    if fault = .isADirectory && r.skipsDirectories then return st
    let output ← st.output.flush
    if !r.silent then complain tool (path ++ ": " ++ fault.reason)
    return { st with output, failed := true }
  | none =>
    let isBinary := !r.isText && r.mark == '\n' && source.buffer.contains '\x00'
    if isBinary && r.skipsBinary then return st
    let stops := r.limit == some 0
    let start : Search := { output := st.output, finders := fs, name, showsName, isBinary, stops }
    let (s, _) ← lines r manyPieces start source
    let output ← if r.quiet then pure s.output
      else match r.names with
        | some wanted =>
          if (s.chosen != 0) == wanted then
            s.output.add (name ++ if r.zeroNames then "\x00" else "\n")
          else pure s.output
        | none =>
          if r.counts then
            let bare := { r with numbers := false, offsets := false }
            s.output.add (front bare s ':' 0 0 true ++ toString s.chosen ++ "\n")
          else pure s.output
    let output ← if s.isBinary && showsLines r && s.chosen != 0 then do
        let output ← output.flush
        complain tool (name ++ ": binary file matches")
        pure output
      else pure output
    return { st with output, found := st.found || s.chosen != 0 }

def filesBelow (files : Files.Tree) (path : String) : List String :=
  match files.resolve (Text.decode path) with
  | .error _ => [path]
  | .ok place =>
    match files.get? place with
    | some .directory =>
      let below := files.entries.filter fun (p, e) =>
        place.isPrefixOf p && p != place && e != .directory
      let names := below.map fun (p, _) => Text.encode ("/".intercalate (p.drop place.length))
      let base := if path.endsWith "/" then path else path ++ "/"
      (names.mergeSort (· ≤ ·)).map (base ++ ·)
    | _ => [path]

/-- Searches all inputs. A quiet search ends with the first one that has a chosen line. -/
def searchAll (tool : String) (r : Request) (fs : List Regex.Finder) (showsName : Bool) :
    List String → State → Action State
  | [], st => return st
  | path :: rest, st => do
    match ← openInput path with
    | .error fault =>
      if !r.silent then
        let output ← st.output.flush
        complain tool (path ++ ": " ++ fault.reason)
        searchAll tool r fs showsName rest { st with output, failed := true }
      else searchAll tool r fs showsName rest { st with failed := true }
    | .ok source =>
      let st ← searchInput tool r fs showsName path source st
      if r.quiet && st.found then return st else searchAll tool r fs showsName rest st

def usage (tool : String) : Action Nat := do
  let _ ← ask (.write 2 (hint tool ++ "\n"))
  return 2

def patternFiles (tool : String) (o : Options) : Action (List String) := do
  let paths := o.given.filter (·.1 == 'f')
  let texts ← paths.mapM fun (_, path) => do
    match ← openInput path with
    | .ok source => return Text.lines (← source.rest manyPieces []).1
    | .error fault =>
      complain tool (path ++ ": " ++ fault.reason)
      exit 2
  return texts.flatten

def run (tool : String) (kind : PatternKind) (o : Options) : Action Nat := do
  match o.given.foldlM (option tool) { kind } with
  | .error fault =>
    complain tool fault.text
    return fault.status
  | .ok r =>
    let fromFiles ← patternFiles tool o
    let r := withDigits o r
    let isGiven := o.has 'e' || o.has 'f'
    match isGiven, o.operands with
    | false, [] => usage tool
    | _, operands =>
      let (patterns, paths) := match isGiven, operands with
        | false, p :: paths => (p.splitOn "\n", paths)
        | _, paths => (r.patterns ++ fromFiles, paths)
      let r := { r with patterns }
      match finders r with
      | .error fault =>
        complain tool fault.message
        return 2
      | .ok fs =>
        if r.kind == .extended then
          let signs := patterns.flatMap fun p => startingSigns (p.length + 1) true false p.toList
          signs.forM fun sign => complain tool ("warning: " ++ sign ++ " at start of expression")
        let files ← files
        let inputs := match r.recursive, paths with
          | true, [] => (filesBelow files ".").map fun p => String.ofList (p.toList.drop 2)
          | true, paths => paths.flatMap (filesBelow files)
          | false, [] => ["-"]
          | false, paths => paths
        let isDirectory := fun path => files.isDirectory (Text.decode path)
        let showsName := r.withName.getD
          (1 < paths.length || r.recursive && (paths.isEmpty || paths.any isDirectory))
        if r.limit == some 0 && r.names != some false then return 1
        let start : State := { output := { tool, failure := 2 } }
        let st ← searchAll tool r fs showsName inputs start
        let _ ← st.output.flush
        if st.failed && !(r.quiet && st.found) then return 2
        return if st.found then 0 else 1

def program (kind : PatternKind) : Program := fun _ c => do
  match Options.read kinds (c.valueOf? strictVariable).isNone c.arguments with
  | .ok o => run c.name kind o
  | .error text =>
    complain c.name text
    usage c.name

def namedProgram (kind : PatternKind) : Program := fun exec c =>
  program kind exec { c with name := "grep" }

end ImageLinker.Tools.Grep
