import ImageLinker.Tools.Basic

/-! Tools that count, cut, sort and compare lines. -/
namespace ImageLinker.Tools

open Unix Action

structure Counts where
  lines : Nat := 0
  words : Nat := 0
  bytes : Nat := 0
  longest : Nat := 0
  deriving DecidableEq, Repr, Inhabited

namespace Counts

def ofText (text : String) : Counts :=
  let cs := text.toList
  let words := (cs.foldl (fun ((n, inWord) : Nat × Bool) c =>
    if Text.isSpace c then (n, false) else (if inWord then n else n + 1, true)) (0, false)).1
  let width := fun (line : String) =>
    let after := fun (n : Nat) (c : Char) =>
      if c == '\t' then n / 8 * 8 + 8 else if ' ' ≤ c && c ≤ '~' then n + 1 else n
    line.foldl after 0
  { lines := cs.count '\n', words, bytes := cs.length
    longest := ((Text.lines text).map width).foldl max 0 }

def add (a b : Counts) : Counts :=
  ⟨a.lines + b.lines, a.words + b.words, a.bytes + b.bytes, max a.longest b.longest⟩

def columns (c : Counts) (asked : Char → Bool) : List Nat :=
  [('l', c.lines), ('w', c.words), ('m', c.bytes), ('c', c.bytes), ('L', c.longest)].filterMap
    fun (letter, n) => if asked letter then some n else none

def shown (width : Nat) (numbers : List Nat) : String :=
  " ".intercalate (numbers.map fun n =>
    let digits := toString n
    String.ofList (List.replicate (width - digits.length) ' ') ++ digits)

/-- How wide numbers are: for the sizes of all files together, and more if some are no files. -/
def width (sizes : List (Option (Option Nat))) : Nat :=
  let known := sizes.filterMap id
  let total := (known.filterMap id).foldl (· + ·) 0
  max (toString total).length (if known.any (·.isNone) then 7 else 1)

end Counts

def inputSize (path : String) : Action (Option (Option Nat)) := do
  match ← openInput path with
  | .error _ => return none
  | .ok source => return some ((← ask (.position source.descriptor)).map (·.size))

def wc : Program :=
  withOptions [⟨'l', "lines", .nothing⟩, ⟨'w', "words", .nothing⟩, ⟨'c', "bytes", .nothing⟩,
    ⟨'m', "chars", .nothing⟩, ⟨'L', "max-line-length", .nothing⟩] fun tool o => do
      let asked := fun c => if o.given.isEmpty then "lwc".toList.contains c else o.has c
      let columns := (Counts.columns {} asked).length
      let paths := if o.operands.isEmpty then ["-"] else o.operands
      let sizes ← paths.mapM inputSize
      let width := if columns = 1 && paths.length = 1 then 1 else Counts.width sizes
      let (total, ok) ← forInputs tool {} paths ({} : Counts) fun path source total => do
        let (text, source) ← source.rest manyPieces []
        let counts := Counts.ofText text
        let name := if o.operands.isEmpty then "" else " " ++ path
        print tool (Counts.shown width (counts.columns asked) ++ name ++ "\n")
        return (total.add counts, source)
      if 1 < paths.length then
        print tool (Counts.shown width (total.columns asked) ++ " total\n")
      return if ok then 0 else 1

abbrev PositionRange := Nat × Option Nat

/-- A range as it is written; what is wrong with it depends on what is counted. -/
def positionRange (isField : Bool) (text : String) : Except String PositionRange := do
  let cs := text.toList
  let kind := if isField then "field" else "byte/character position"
  let invalid :=
    throw ("invalid " ++ kind ++ " " ++ (if isField then "value " else "") ++ Quoting.literal text)
  let isZero := throw (if isField then "fields are numbered from 1"
    else "byte/character positions are numbered from 1")
  let first := cs.takeWhile Char.isDigit
  match cs.drop first.length with
  | [] =>
    match Text.decimal? first with
    | none => if text.isEmpty then isZero else invalid
    | some 0 => isZero
    | some n => return (n, some n)
  | '-' :: last =>
    if first.isEmpty && last.isEmpty then throw "invalid range with no endpoint: -"
    let low := if first.isEmpty then 1 else (Text.decimal? first).getD 0
    if low = 0 then isZero
    else if last.isEmpty then return (low, none)
    else match Text.decimal? last with
    | none => invalid
    | some high => if high < low then throw "invalid decreasing range" else return (low, some high)
  | _ => invalid

def holdsPosition (ranges : List PositionRange) (n : Nat) : Bool :=
  ranges.any fun (low, high) => low ≤ n && high.all (n ≤ ·)

structure Cut where
  fields : Bool
  ranges : List PositionRange
  complements : Bool
  separator : Char
  joint : String
  onlySeparated : Bool

def Cut.line (c : Cut) (line : String) : Option String :=
  let isChosen := fun (n : Nat) => holdsPosition c.ranges (n + 1) != c.complements
  if c.fields then
    let parts := line.splitOn (String.singleton c.separator)
    if parts.length = 1 then (if c.onlySeparated then none else some line)
    else some (c.joint.intercalate ((parts.zipIdx.filter fun (_, n) => isChosen n).map (·.1)))
  else some (String.ofList ((line.toList.zipIdx.filter fun (_, n) => isChosen n).map (·.1)))

def mapLines (tool : String) (w : Wording) (paths : List String) (work : String → Option String) :
    Action Nat := do
  let (_, ok) ← forInputs tool w paths () fun _ source _ => do
    let (text, source) ← source.rest manyPieces []
    print tool (String.join ((Text.lines text).filterMap fun line => (work line).map (· ++ "\n")))
    return ((), source)
  return if ok then 0 else 1

def cut : Program :=
  withOptions [⟨'b', "bytes", .text⟩, ⟨'c', "characters", .text⟩, ⟨'f', "fields", .text⟩,
    ⟨'d', "delimiter", .text⟩, ⟨'n', "", .nothing⟩, ⟨'s', "only-delimited", .nothing⟩,
    ⟨'\x01', "complement", .nothing⟩, ⟨'\x02', "output-delimiter", .text⟩] fun tool o => do
      let refuse := fun (text : String) => do
        complain tool (text ++ advice tool)
        return 1
      let lists := o.given.filter fun (c, _) => c == 'b' || c == 'c' || c == 'f'
      match lists, (o.value? 'd').map (·.toList) with
      | [], _ => refuse "you must specify a list of bytes, characters, or fields"
      | _ :: _ :: _, _ => refuse "only one type of list may be specified"
      | _, some (_ :: _ :: _) => refuse "the delimiter must be a single character"
      | [(kind, list)], d =>
        let separator := (d.getD ['\t']).head?.getD '\x00'
        let texts := (list.map fun c => if c == ' ' then ',' else c).splitOn ","
        if kind != 'f' && d.isSome then
          refuse "an input delimiter may be specified only when operating on fields"
        else
          match texts.mapM (positionRange (kind == 'f')) with
          | .error text => refuse text
          | .ok ranges =>
            let joint := (o.value? '\x02').getD (String.singleton separator)
            let c : Cut := ⟨kind == 'f', ranges, o.has '\x01', separator, joint, o.has 's'⟩
            mapLines tool {} o.operands c.line

def rev : Program := withOptions [] fun tool o =>
  let wording : Wording :=
    { opening := fun path reason => "cannot open " ++ path ++ ": " ++ reason }
  mapLines tool wording o.operands
    fun line => some (String.ofList line.toList.reverse)

structure Comparison where
  numeric : Bool := false
  reversed : Bool := false
  ignoresCase : Bool := false
  ignoresBlanks : Bool := false
  deriving DecidableEq, Repr, Inhabited

namespace Comparison

def letter (c : Comparison) : Char → Comparison
  | 'n' | 'g' => { c with numeric := true }
  | 'r' => { c with reversed := true }
  | 'f' => { c with ignoresCase := true }
  | 'b' => { c with ignoresBlanks := true }
  | _ => c

/-- The number at the start of a text, by its sign, its digits and the digits behind the point. -/
def number (text : String) : Int × List Char :=
  let cs := text.toList.dropWhile fun c => c == ' ' || c == '\t'
  let (negative, cs) := match cs with
    | '-' :: rest => (true, rest)
    | rest => (false, rest)
  let whole := cs.takeWhile Char.isDigit
  let fraction := match cs.drop whole.length with
    | '.' :: rest => rest.takeWhile Char.isDigit
    | _ => []
  let n : Int := (Text.decimal? whole).getD 0
  let fraction := (fraction.reverse.dropWhile (· == '0')).reverse
  if negative then (-n, '-' :: fraction) else (n, fraction)

def compareNumbers (a b : String) : Ordering :=
  let value := fun (x : Int × List Char) (places : Nat) =>
    let negative := x.2.head? == some '-'
    let digits := if negative then x.2.drop 1 else x.2
    let padded := digits ++ List.replicate (places - digits.length) '0'
    let fraction : Int := (Text.decimal? padded).getD 0
    x.1 * Int.pow 10 places + (if negative then -fraction else fraction)
  let x := number a
  let y := number b
  let places := max x.2.length y.2.length
  compare (value x places) (value y places)

def compareTexts (c : Comparison) (a b : String) : Ordering :=
  let prepare := fun (text : String) =>
    let isBlank := fun (x : Char) => c.ignoresBlanks && (x == ' ' || x == '\t')
    let cs := text.toList.dropWhile isBlank
    if c.ignoresCase then cs.map Char.toUpper else cs
  let order := if c.numeric then compareNumbers a b
    else compare (String.ofList (prepare a)) (String.ofList (prepare b))
  if c.reversed then order.swap else order

end Comparison

/-- A part of a line by which lines are compared: where it begins and ends, by field and
character. -/
structure SortKey where
  first : Nat × Nat
  last : Option (Nat × Nat)
  comparison : Option Comparison
  deriving DecidableEq, Repr, Inhabited

namespace SortKey

def position? (cs : List Char) : Option (Nat × Option Nat × List Char) := do
  let field := cs.takeWhile Char.isDigit
  let n ← Text.decimal? field
  match cs.drop field.length with
  | '.' :: rest =>
    let digits := rest.takeWhile Char.isDigit
    some (n, some (← Text.decimal? digits), rest.drop digits.length)
  | rest => some (n, none, rest)

def read? (text : String) : Option SortKey := do
  let parts := text.splitOn ","
  let (field, character, letters) ← position? (parts.head?.getD "").toList
  if field = 0 then none
  let last ← match parts with
    | [_] => some none
    | [_, last] => (position? last.toList).map some
    | _ => none
  let letters := letters ++ (last.map (·.2.2)).getD []
  if !letters.all "bdfgiMhnRrV".toList.contains then none
  some {
    first := (field, character.getD 1)
    last := last.map fun (f, c, _) => (f, c.getD 0)
    comparison := if letters.isEmpty then none else some (letters.foldl Comparison.letter {}) }

def fields (separator : Option Char) (line : String) : List String :=
  match separator with
  | some c => line.splitOn (String.singleton c)
  | none =>
    let isBlank := fun (c : Char) => c == ' ' || c == '\t'
    let rec split (fuel : Nat) (cs : List Char) : List String :=
      match fuel, cs with
      | 0, _ | _, [] => []
      | fuel + 1, cs =>
        let blanks := cs.takeWhile isBlank
        let word := (cs.drop blanks.length).takeWhile (!isBlank ·)
        String.ofList (blanks ++ word) :: split fuel (cs.drop (blanks.length + word.length))
    split (line.length + 1) line.toList

def text (k : SortKey) (separator : Option Char) (line : String) : String :=
  let joint := (separator.map String.singleton).getD ""
  let fields := fields separator line
  let (startField, startCharacter) := k.first
  match k.last with
  | none =>
    let kept := fields.drop (startField - 1)
    String.ofList ((joint.intercalate kept).toList.drop (startCharacter - 1))
  | some (endField, endCharacter) =>
    let kept := fields.take endField
    let kept := if endCharacter = 0 || kept.length < endField then kept
      else kept.dropLast ++ [String.ofList (((kept.getLast?).getD "").toList.take endCharacter)]
    let kept := kept.drop (startField - 1)
    String.ofList ((joint.intercalate kept).toList.drop (startCharacter - 1))

end SortKey

structure LineOrder where
  keys : List SortKey
  comparison : Comparison
  separator : Option Char
  unique : Bool
  stable : Bool

namespace LineOrder

def byKeys (s : LineOrder) (a b : String) : Ordering :=
  if s.keys.isEmpty then s.comparison.compareTexts a b
  else
    s.keys.foldl (fun order k =>
      order.then (((k.comparison).getD s.comparison).compareTexts (k.text s.separator a)
        (k.text s.separator b))) .eq

def order (s : LineOrder) (a b : String) : Ordering :=
  let order := s.byKeys a b
  if s.unique || s.stable then order
  else order.then (if s.comparison.reversed then compare b a else compare a b)

def firstOnes (s : LineOrder) : List String → List String
  | a :: b :: rest =>
    if s.byKeys a b == .eq then firstOnes s (a :: rest) else a :: firstOnes s (b :: rest)
  | lines => lines
termination_by lines => lines.length

def sorted (s : LineOrder) (lines : List String) : List String :=
  let lines := lines.mergeSort fun a b => s.order a b != .gt
  if s.unique then s.firstOnes lines else lines

end LineOrder

def sort : Program :=
  withOptions ([⟨'n', "numeric-sort", .nothing⟩, ⟨'g', "general-numeric-sort", .nothing⟩,
    ⟨'r', "reverse", .nothing⟩, ⟨'f', "ignore-case", .nothing⟩,
    ⟨'b', "ignore-leading-blanks", .nothing⟩, ⟨'u', "unique", .nothing⟩, ⟨'s', "stable", .nothing⟩,
    ⟨'k', "key", .text⟩, ⟨'t', "field-separator", .text⟩, ⟨'o', "output", .text⟩,
    ⟨'c', "check", .nothing⟩, ⟨'z', "zero-terminated", .nothing⟩]) fun tool o => do
      let keyTexts := (o.given.filter (·.1 == 'k')).map (·.2)
      match keyTexts.mapM SortKey.read? with
      | none =>
        complain tool "invalid key"
        return 2
      | some keys =>
        let s : LineOrder :=
          { keys
            comparison := o.given.foldl (fun c (x, _) => c.letter x) {}
            separator := (o.value? 't').bind fun t =>
              if t == "\\0" then some '\x00' else t.toList.head?
            unique := o.has 'u'
            stable := o.has 's' }
        let wording : Wording :=
          { opening := fun path reason => "cannot read: " ++ namedFile path reason
            reading := fun path reason => "read failed: " ++ namedFile path reason }
        let (texts, ok) ← forInputs tool wording o.operands [] fun _ source texts => do
          let (text, source) ← source.rest manyPieces []
          return (text :: texts, source)
        if !ok then return 2
        let lines := texts.reverse.flatMap Text.lines
        if o.has 'c' then
          let pairs := (lines.zip (lines.drop 1)).zipIdx
          match pairs.find? fun ((a, b), _) =>
              s.order a b == .gt || s.unique && s.order a b == .eq with
          | none => return 0
          | some ((_, b), n) =>
            let path := o.operands.head?.getD "-"
            complain tool (path ++ ":" ++ toString (n + 2) ++ ": disorder: " ++ b)
            return 1
        let text := String.join ((s.sorted lines).map (· ++ "\n"))
        match o.value? 'o' with
        | none =>
          print tool text
          return 0
        | some path =>
          match ← openOn fileDescriptor path .write with
          | .ok _ =>
            let _ ← ask (.write fileDescriptor text)
            return 0
          | .error fault =>
            complain tool ("open failed: " ++ namedFile path fault.reason)
            return 2

/-- Lines that are the same one after another, with their number. -/
def runs (key : String → String) : List String → List (String × Nat)
  | [] => []
  | line :: rest =>
    match runs key rest with
    | (next, n) :: more =>
      if key line == key next then (line, n + 1) :: more else (line, 1) :: (next, n) :: more
    | [] => [(line, 1)]

def uniq : Program :=
  withOptions [⟨'c', "count", .nothing⟩, ⟨'d', "repeated", .nothing⟩, ⟨'u', "unique", .nothing⟩,
    ⟨'i', "ignore-case", .nothing⟩, ⟨'f', "skip-fields", .text⟩, ⟨'s', "skip-chars", .text⟩,
    ⟨'w', "check-chars", .text⟩] fun tool o => do
      let count := fun (c : Char) => (o.value? c).bind fun t => Text.decimal? t.toList
      let isBlank := fun (c : Char) => c == ' ' || c == '\t'
      let skipField := fun (cs : List Char) => (cs.dropWhile isBlank).dropWhile (!isBlank ·)
      let key := fun (line : String) =>
        let cs := (List.range ((count 'f').getD 0)).foldl (fun cs _ => skipField cs) line.toList
        let cs := cs.drop ((count 's').getD 0)
        let cs := match count 'w' with
          | some n => cs.take n
          | none => cs
        String.ofList (if o.has 'i' then cs.map Char.toLower else cs)
      let (texts, ok) ← forInputs tool {} (o.operands.take 1) [] fun _ source texts => do
        let (text, source) ← source.rest manyPieces []
        return (text :: texts, source)
      if !ok then return 1
      let chosen := (runs key (Text.lines (String.join texts))).filter fun (_, n) =>
        (!o.has 'd' || 1 < n) && (!o.has 'u' || n = 1)
      let text := String.join (chosen.map fun (line, n) =>
        let digits := toString n
        let front := String.ofList (List.replicate (7 - digits.length) ' ') ++ digits ++ " "
        (if o.has 'c' then front else "") ++ line ++ "\n")
      match o.operands[1]? with
      | none =>
        print tool text
        return 0
      | some path =>
        match ← openOn fileDescriptor path .write with
        | .ok _ =>
          let _ ← ask (.write fileDescriptor text)
          return 0
        | .error fault =>
          complainOf tool path fault
          return 1

end ImageLinker.Tools
