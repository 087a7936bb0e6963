import ImageLinker.Tools.Basic

/-! Tools that pass on their input, or the start or the end of it. -/
namespace ImageLinker.Tools

open Unix Action

structure Cat where
  numbers : Bool := false
  numbersFilled : Bool := false
  showsEnds : Bool := false
  showsTabs : Bool := false
  showsOthers : Bool := false
  /-- Of empty lines behind one another only the first is printed. -/
  squeezes : Bool := false
  line : Nat := 0
  atStart : Bool := true
  emptyLines : Nat := 0
  /-- A carriage return has been read that may belong to the end of a line. -/
  pending : Bool := false
  deriving DecidableEq, Repr, Inhabited

namespace Cat

def letter (s : Cat) : Char → Cat
  | 'A' => { s with showsEnds := true, showsTabs := true, showsOthers := true }
  | 'b' => { s with numbers := true, numbersFilled := true }
  | 'e' => { s with showsEnds := true, showsOthers := true }
  | 'E' => { s with showsEnds := true }
  | 'n' => { s with numbers := true }
  | 's' => { s with squeezes := true }
  | 't' => { s with showsTabs := true, showsOthers := true }
  | 'T' => { s with showsTabs := true }
  | 'v' => { s with showsOthers := true }
  | _ => s

def isPlain (s : Cat) : Bool :=
  !(s.numbers || s.showsEnds || s.showsTabs || s.showsOthers || s.squeezes)

def visible (c : Char) : List Char :=
  let low := fun (n : Nat) =>
    if n < 32 then ['^', Char.ofNat (n + 64)] else if n = 127 then ['^', '?'] else [Char.ofNat n]
  if c.toNat < 128 then low c.toNat else 'M' :: '-' :: low (c.toNat - 128)

def shown (s : Cat) (c : Char) : List Char :=
  if c == '\t' then (if s.showsTabs then ['^', 'I'] else ['\t'])
  else if s.showsOthers then visible c else [c]

def number (n : Nat) : List Char :=
  let digits := Nat.toDigits 10 n
  List.replicate (6 - digits.length) ' ' ++ digits ++ ['\t']

def next (s : Cat) (c : Char) : Cat × List Char :=
  if c == '\n' then
    let empty := if s.atStart then s.emptyLines + 1 else 0
    if s.squeezes && 1 < empty then ({ s with emptyLines := empty }, [])
    else
      let numbered := s.atStart && s.numbers && !s.numbersFilled
      let line := if numbered then s.line + 1 else s.line
      let front := if numbered then number line else []
      ({ s with line, atStart := true, emptyLines := empty },
        front ++ (if s.showsEnds then ['$'] else []) ++ ['\n'])
  else
    let numbered := s.atStart && s.numbers
    let line := if numbered then s.line + 1 else s.line
    let front := if numbered then number line else []
    if c == '\r' && s.showsEnds && !s.showsOthers then
      ({ s with line, atStart := false, emptyLines := 0, pending := true }, front)
    else ({ s with line, atStart := false, emptyLines := 0 }, front ++ s.shown c)

/-- What is printed for one character. Where ends are shown, a carriage return in front of one is
shown too. -/
def step (s : Cat) (c : Char) : Cat × List Char :=
  if s.pending then
    let (s, text) := { s with pending := false }.next c
    (s, (if c == '\n' then ['^', 'M'] else ['\r']) ++ text)
  else s.next c

def text (s : Cat) (cs : List Char) : Cat × String :=
  let (s, out) := cs.foldl (fun (s, out) c =>
    let (s, more) := s.step c
    (s, more.reverse ++ out)) (s, ([] : List Char))
  (s, String.ofList out.reverse)

/-- Copies an input piece by piece. -/
def copy (tool : String) : (fuel : Nat) → Cat → Source → Action (Cat × Source)
  | 0, s, source => return (s, source)
  | fuel + 1, s, source => do
    let source ← source.fill
    if source.ended then return (s, source)
    let (s, text) := if s.isPlain then (s, String.ofList source.buffer) else s.text source.buffer
    print tool text
    copy tool fuel s { source with buffer := [] }

def kinds : List OptionKind :=
  [⟨'b', "number-nonblank", .nothing⟩, ⟨'n', "number", .nothing⟩, ⟨'s', "squeeze-blank", .nothing⟩,
    ⟨'v', "show-nonprinting", .nothing⟩, ⟨'E', "show-ends", .nothing⟩, ⟨'T', "show-tabs", .nothing⟩,
    ⟨'A', "show-all", .nothing⟩, ⟨'e', "", .nothing⟩, ⟨'t', "", .nothing⟩, ⟨'u', "", .nothing⟩]

end Cat

def cat : Program := withOptions Cat.kinds fun tool o => do
  let s := o.given.foldl (fun (s : Cat) (c, _) => s.letter c) {}
  let ((s, copied), ok) ← forInputs tool {} o.operands (s, true) fun path source (s, copied) => do
    let own ← ownOutput? source
    if own.any fun p => p.offset < p.size then
      complain tool (Quoting.fileName path ++ ": input file is output file")
      return ((s, false), source)
    let (s, source) ← Cat.copy tool manyPieces s source
    return ((s, copied), source)
  if s.pending then print tool "\r"
  let readsInput := o.operands.isEmpty || o.operands.contains "-"
  if readsInput && (← ask (.channel 0)).isNone then
    complain tool ("closing standard input: " ++ Files.Fault.badDescriptor.reason)
    return 1
  return if ok && copied then 0 else 1

/-- Copies the input to files as well. -/
def tee : Program :=
  withOptions [⟨'a', "append", .nothing⟩, ⟨'i', "ignore-interrupts", .nothing⟩] fun tool o => do
    let mode := if o.has 'a' then OpenMode.append else .write
    let opened ← o.operands.zipIdx.mapM fun (path, n) => do
      match ← openOn (fileDescriptor + n) path mode with
      | .ok _ => return some (fileDescriptor + n)
      | .error fault =>
        complainOf tool path fault
        return none
    let targets := opened.filterMap id
    let rec copy (fuel : Nat) : Action Unit := do
      match fuel with
      | 0 => return ()
      | fuel + 1 =>
        match ← readBlock 0 with
        | .error _ | .ok "" => return ()
        | .ok text =>
          print tool text
          targets.forM fun n => do
            let _ ← ask (.write n text)
          copy fuel
    copy manyPieces
    return if targets.length = opened.length then 0 else 1

/-- How much of an input: all but so much, or so much. -/
structure Share where
  bytes : Bool := false
  others : Bool := false
  count : Nat := 10
  mark : Char := '\n'
  deriving DecidableEq, Repr, Inhabited

namespace Share

/-- The first so many lines and how many are missing, and what is left. -/
def firstLines (mark : Char) : (count : Nat) → (done : List Char) → List Char →
    List Char × Nat × List Char
  | 0, done, cs => (done.reverse, 0, cs)
  | count + 1, done, [] => (done.reverse, count + 1, [])
  | count + 1, done, c :: cs =>
    firstLines mark (if c == mark then count else count + 1) (c :: done) cs

def beforeLastLines (mark : Char) (count : Nat) (cs : List Char) : Nat :=
  let reversed := cs.reverse
  let (last, reversed) := match reversed with
    | c :: rest => if c == mark then ([c], rest) else ([], reversed)
    | [] => ([], [])
  let rec skip : (count : Nat) → List Char → List Char
    | 0, cs => cs
    | _ + 1, [] => []
    | count + 1, c :: cs =>
      if c == mark then (if count = 0 then c :: cs else skip count cs) else skip (count + 1) cs
  if count = 0 then cs.length
  else if last.isEmpty && reversed.isEmpty then 0
  else (skip count reversed).length

/-- The part of a text at its end, by how many characters come before it. -/
def beforeLast (s : Share) (cs : List Char) : Nat :=
  if s.bytes then cs.length - s.count else beforeLastLines s.mark s.count cs

/-- Prints the first part of an input, and reads no further than needed. -/
def printFirst (tool : String) (s : Share) : (fuel : Nat) → (left : Nat) → Source → Action Source
  | 0, _, source => return source
  | fuel + 1, left, source => do
    if left = 0 then source.giveBack
    else
      let source ← { source with block := if s.bytes then min left 8192 else 8192 }.fill
      if source.ended then return source
      let (text, left, rest) := if s.bytes then
          let text := source.buffer.take left
          (text, left - text.length, source.buffer.drop left)
        else firstLines s.mark left [] source.buffer
      print tool (String.ofList text)
      printFirst tool s fuel left { source with buffer := rest }

def printInput (tool : String) (s : Share) (source : Source) : Action Source := do
  if s.others then
    let (text, source) ← source.rest manyPieces []
    let cs := text.toList
    print tool (String.ofList (cs.take (s.beforeLast cs)))
    return source
  else s.printFirst tool manyPieces s.count source

def kinds : List OptionKind :=
  [⟨'c', "bytes", .text⟩, ⟨'n', "lines", .text⟩, ⟨'q', "quiet", .nothing⟩,
    ⟨'q', "silent", .nothing⟩, ⟨'v', "verbose", .nothing⟩, ⟨'z', "zero-terminated", .nothing⟩]

def fault (bytes : Bool) (text : String) (f : AmountFault) : String :=
  "invalid number of " ++ (if bytes then "bytes" else "lines") ++ ": " ++ Quoting.literal text ++
    match f with
    | .noNumber => ""
    | .tooLarge => ": Value too large for defined data type"

/-- Turns an old way to write the first option, a number with letters, into the present one. Other
letters than those that are known are refused. -/
def modernized (arguments : List String) : Except Char (List String) :=
  match arguments with
  | a :: rest =>
    match a.toList with
    | '-' :: cs =>
      let digits := cs.takeWhile Char.isDigit
      let letters := cs.drop digits.length
      if digits.isEmpty then .ok arguments
      else do
        match letters.find? (!"bckmqvz".toList.contains ·) with
        | some c => throw c
        | none => pure ()
        let unit := (letters.filter "bkm".toList.contains).getLast?
        let kind := if letters.contains 'c' || unit.isSome then 'c' else 'n'
        let flags := letters.filter "qvz".toList.contains
        let count := String.ofList ('-' :: kind :: digits ++ unit.toList)
        return count :: (flags.map fun c => String.ofList ['-', c]) ++ rest
    | _ => .ok arguments
  | [] => .ok []

def ofOptions (isSign : Char → Bool) (o : Options) : Except String (Share × Bool) := do
  let mark := if o.has 'z' then '\x00' else '\n'
  let read := fun (s : Share × Bool) ((c, text) : Char × String) => do
    if c != 'n' && c != 'c' then return s
    let (signed, cs) := match text.toList with
      | x :: rest =>
        if isSign x then (true, rest)
        else (false, if x == '+' || x == '-' then rest else x :: rest)
      | [] => (false, [])
    match amount UInt64.size cs with
    | .ok count => return ({ s.1 with bytes := c == 'c', count }, signed)
    | .error f => throw (fault (c == 'c') (String.ofList cs) f)
  o.given.foldlM read ({ mark }, false)

/-- Prints the name of an input above it if there are several. -/
def header (tool : String) (o : Options) (path : String) (isFirst : Bool) : Action Unit := do
  let shows := match o.last? ['q', 'v'] with
    | some c => c == 'v'
    | none => 1 < o.operands.length
  if shows then
    let name := if path = "-" then "standard input" else path
    print tool ((if isFirst then "" else "\n") ++ "==> " ++ name ++ " <==\n")

def wording : Wording where
  opening path reason := "cannot open " ++ Quoting.inQuotes path ++ " for reading: " ++ reason
  reading path reason := "error reading " ++ Quoting.inQuotes path ++ ": " ++ reason

def program (toShare : Options → Except String Share)
    (work : (tool : String) → Share → Source → Action Source) : Program :=
  fun exec c => do
    match modernized c.arguments with
    | .error letter =>
      complain c.name ("invalid trailing option -- " ++ String.singleton letter ++ advice c.name)
      return 1
    | .ok arguments => withOptions kinds (fun tool o => do
      match toShare o with
      | .error text =>
        complain tool text
        return 1
      | .ok s =>
        let (_, ok) ← forInputs tool wording o.operands true fun path source isFirst => do
          header tool o path isFirst
          return (false, ← work tool s source)
        return if ok then 0 else 1) exec { c with arguments }

end Share

def head : Program :=
  Share.program (fun o => do
    let (s, signed) ← Share.ofOptions (· == '-') o
    return { s with others := signed }) Share.printInput

/-- Prints the end of each input; a plus sign counts from the start. -/
def tail : Program :=
  Share.program (fun o => do
    let (s, signed) ← Share.ofOptions (· == '+') o
    return { s with others := signed }) fun tool s source => do
      let (text, source) ← source.rest manyPieces []
      let cs := text.toList
      let before := if !s.others then s.beforeLast cs
        else if s.bytes then s.count - 1
        else ((Share.firstLines s.mark (s.count - 1) [] cs).1).length
      print tool (String.ofList (cs.drop before))
      return source

/-- Prints the lines of each input, the last one first. -/
def tac : Program :=
  withOptions [] fun tool o => do
    let wording : Wording :=
      { opening := fun path reason =>
          "failed to open " ++ Quoting.inQuotes path ++ " for reading: " ++ reason
        reading := fun path reason => Quoting.fileName path ++ ": read error: " ++ reason }
    let (_, ok) ← forInputs tool wording o.operands () fun _ source _ => do
      let (text, source) ← source.rest manyPieces []
      let lines := Text.lines text
      let isOpen := text.toList.getLast? != some '\n'
      let lines := match lines.reverse with
        | last :: rest => (if isOpen then last else last ++ "\n") :: rest.map (· ++ "\n")
        | [] => []
      print tool (String.join lines)
      return ((), source)
    return if ok then 0 else 1

end ImageLinker.Tools
