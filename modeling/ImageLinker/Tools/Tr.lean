import ImageLinker.Shell.CharacterSet
import ImageLinker.Tools.Basic

/-! The tool that changes, deletes and squeezes characters. -/
namespace ImageLinker.Tools.Tr

open Unix Action Shell

/-- A part of a set of characters, which are in order. -/
inductive Item where
  | characters (cs : List Char)
  | equivalent (c : Char)
  | ofClass (name : String)
  | repeated (c : Char) (count : Nat)
  deriving DecidableEq, Repr, Inhabited

/-- The characters of a text; backslashes are resolved, and those that they hide are marked. -/
def unescape : (fuel : Nat) → List Char → List (Char × Bool)
  | 0, _ | _, [] => []
  | _, ['\\'] => [('\\', false)]
  | fuel + 1, '\\' :: c :: rest =>
    let simple := fun (x : Char) => (x, true) :: unescape fuel rest
    match c with
    | 'a' => simple '\x07'
    | 'b' => simple '\x08'
    | 'f' => simple '\x0c'
    | 'n' => simple '\n'
    | 'r' => simple '\r'
    | 't' => simple '\t'
    | 'v' => simple '\x0b'
    | c =>
      if '0' ≤ c && c ≤ '7' then
        let (value, left) := Text.numberPrefix 8 3 none (c :: rest)
        if value.getD 0 < 256 then (Char.ofNat (value.getD 0), true) :: unescape fuel left
        else
          let (value, left) := Text.numberPrefix 8 2 none (c :: rest)
          (Char.ofNat (value.getD 0), true) :: unescape fuel left
      else simple c
  | fuel + 1, c :: rest => (c, false) :: unescape fuel rest

/-- What is told of backslashes that are read in one of two ways. -/
def remarks : (fuel : Nat) → List Char → List String
  | 0, _ | _, [] => []
  | _, ['\\'] => ["warning: an unescaped backslash at end of string is not portable"]
  | fuel + 1, '\\' :: c :: rest =>
    let (value, left) := Text.numberPrefix 8 3 none (c :: rest)
    match (c :: rest).take 3 with
    | [a, b, c] =>
      if value.getD 0 < 256 then remarks fuel (if value.isSome then left else rest)
      else
        let two := String.ofList [a, b]
        ("warning: the ambiguous octal escape \\" ++ two.push c ++ " is being\n\t" ++
          "interpreted as the 2-byte sequence \\0" ++ two ++ ", " ++ String.singleton c) ::
          remarks fuel (rest.drop 1)
    | _ => remarks fuel (if value.isSome then left else rest)
  | fuel + 1, _ :: rest => remarks fuel rest

def classCharacters (name : String) : List Char :=
  let ranges := (CharacterSet.ofClass name).getD []
  ((List.range 256).map Char.ofNat).filter (CharacterSet.mk false ranges).contains

/-- The count of a repeated character: octal if it begins with a zero. -/
def count? (cs : List Char) : Option Nat :=
  if cs.isEmpty then some 0
  else
    let radix := if cs.head? == some '0' then 8 else 10
    match Text.numberPrefix radix cs.length none cs with
    | (value, []) => value
    | _ => none

def visible (c : Char) : List Char := if Quoting.isShown c then [c] else Quoting.escaped c

def readBracket (cs : List (Char × Bool)) : Except String (Option (Item × List (Char × Bool))) := do
  let plain := fun (n : Nat) (c : Char) => cs[n]? == some (c, false)
  let named := fun (mark : Char) =>
    ((List.range cs.length).find? fun n => 0 < n && plain n mark && plain (n + 1) ']').map fun n =>
      (((cs.take n).drop 1).map (·.1), cs.drop (n + 2))
  if plain 0 ':' then
    match named ':' with
    | some (name, rest) =>
      let name := String.ofList name
      if (CharacterSet.ofClass name).isSome then return some (.ofClass name, rest)
      else
        let shown := String.ofList (name.toList.flatMap visible)
        throw ("invalid character class " ++ Quoting.literal shown)
    | none => pure ()
  if plain 0 '=' then
    match named '=' with
    | some ([c], rest) => return some (.equivalent c, rest)
    | some (name, _) =>
      throw (String.ofList (name.flatMap visible) ++
        ": equivalence class operand must be a single character")
    | none => pure ()
  if plain 1 '*' then
    match cs with
    | (c, _) :: _ :: rest =>
      let inside := rest.takeWhile (· != (']', false))
      match inside.any (·.2), rest.drop inside.length with
      | true, _ | _, [] => return none
      | false, _ :: rest =>
        match count? (inside.map (·.1)) with
        | some n => return some (.repeated c n, rest)
        | none =>
          let shown := String.ofList (inside.flatMap fun (c, _) => visible c)
          throw ("invalid repeat count " ++ Quoting.literal shown ++ " in [c*n] construct")
    | _ => return none
  return none

def readItems : (fuel : Nat) → List (Char × Bool) → Except String (List Item)
  | 0, _ | _, [] => .ok []
  | fuel + 1, ('[', false) :: rest => do
    match ← readBracket rest with
    | some (item, rest) => return item :: (← readItems fuel rest)
    | none => readRange fuel '[' rest
  | fuel + 1, (c, _) :: rest => readRange fuel c rest
where
  ending (c : Char) : List Char :=
    if Quoting.isShown c then [c] else '\\' :: Quoting.octal c.toNat
  readRange (fuel : Nat) (c : Char) (rest : List (Char × Bool)) : Except String (List Item) := do
    match rest with
    | ('-', false) :: (last, _) :: rest =>
      if last < c then
        throw ("range-endpoints of '" ++ String.ofList (ending c ++ '-' :: ending last) ++
          "' are in reverse collating sequence order")
      let count := last.toNat + 1 - c.toNat
      return .characters ((List.range count).map fun i => Char.ofNat (c.toNat + i)) ::
        (← readItems fuel rest)
    | rest => return .characters [c] :: (← readItems fuel rest)

def readSet (text : String) : Except String (List Item) :=
  readItems (text.length + 1) (unescape (text.length + 1) text.toList)

def manyCharacters : Nat := 65536

def characters (filling : Nat) (items : List Item) : List Char :=
  items.flatMap fun i =>
    match i with
    | .characters cs => cs
    | .equivalent c => [c]
    | .ofClass name => classCharacters name
    | .repeated c 0 => List.replicate filling c
    | .repeated c n => List.replicate (min n manyCharacters) c

def isFilling : Item → Bool
  | .repeated _ 0 => true
  | _ => false

def isEquivalent : Item → Bool
  | .equivalent _ => true
  | _ => false

def isClass : Item → Bool
  | .ofClass _ => true
  | _ => false

def isCaseClass : Item → Bool
  | .ofClass "upper" | .ofClass "lower" => true
  | _ => false

def caseClassPlaces (filling : Nat) : (place : Nat) → List Item → List Nat
  | _, [] => []
  | place, i :: rest =>
    let more := caseClassPlaces filling (place + (characters filling [i]).length) rest
    if isCaseClass i then place :: more else more

def complement (cs : List Char) : List Char :=
  ((List.range 256).map Char.ofNat).filter (!cs.contains ·)

/-- What is done to a character: nothing is left of it, or it becomes another one. -/
structure Plan where
  table : Array (Option Char)
  squeezed : List Char
  deriving DecidableEq, Repr, Inhabited

def identityTable : Array (Option Char) := (Array.range 256).map fun n => some (Char.ofNat n)

structure Request where
  complements : Bool
  deletes : Bool
  squeezes : Bool
  truncates : Bool
  deriving DecidableEq, Repr, Inhabited

/-- What the characters of a first set become, which is said by the items of a second one. A class
of letters of one case stands where there is one in the first set too. The last character fills up
what is missing. -/
def target (r : Request) (source : List Char) (items others : List Item) :
    Except String (List Char) := do
  if others.any isEquivalent then
    throw "[=c=] expressions may not appear in string2 when translating"
  if others.any fun i => isClass i && !isCaseClass i then
    throw ("when translating, the only character classes that may appear in\n" ++
      "string2 are 'upper' and 'lower'")
  let size := source.length
  let filling := size - (characters 0 others).length
  let places := caseClassPlaces 0 0 items
  let isMisplaced := fun place => place ≤ size && !places.contains place
  if !r.complements && (caseClassPlaces filling 0 others).any isMisplaced then
    throw "misaligned [:upper:] and/or [:lower:] construct"
  let cs := characters filling others
  let goal ← match r.truncates || size ≤ cs.length, cs.getLast? with
    | true, _ => pure cs
    | false, none => throw "when not truncating set1, string2 must be non-empty"
    | false, some last =>
      if (others.getLast?).any isClass then
        throw ("when translating with string1 longer than string2,\n" ++
          "the latter string must not end with a character class")
      pure (cs ++ List.replicate (size - cs.length) last)
  let isOne := goal.length = size && goal.all fun c => goal.head? == some c
  if r.complements && items.any isClass && !isOne then
    throw ("when translating with complemented character classes,\n" ++
      "string2 must map all characters in the domain to one")
  return goal

def plan (r : Request) (first : String) (second : Option String) : Except String Plan := do
  let items ← readSet first
  let others ← (second.mapM readSet)
  if items.any isFilling then throw "the [c*] repeat construct may not appear in string1"
  if 1 < ((others.getD []).filter isFilling).length then
    throw "only one [c*] repeat construct may appear in string2"
  let own := characters 0 items
  let source := if r.complements then complement own else own
  let deleting := fun (table : Array (Option Char)) =>
    source.foldl (fun (t : Array (Option Char)) c => t.set! c.toNat none) table
  match r.deletes, others with
  | true, others =>
    if (others.getD []).any isFilling then
      throw "the [c*] construct may appear in string2 only when translating"
    return ⟨deleting identityTable, if r.squeezes then characters 0 (others.getD []) else []⟩
  | false, none => return ⟨identityTable, source⟩
  | false, some others =>
    let goal ← target r source items others
    let pairs := source.zip goal
    let table := pairs.foldl (fun (t : Array (Option Char)) (c, x) => t.set! c.toNat (some x))
      identityTable
    return ⟨table, if r.squeezes then goal else []⟩

/-- Changes characters. The last one that was kept counts for squeezing. -/
def Plan.apply (p : Plan) (last : Option Char) (cs : List Char) : Option Char × List Char :=
  let (last, out) := cs.foldl (fun (last, out) c =>
    match p.table[c.toNat]?.getD (some c) with
    | none => (last, out)
    | some x => if last == some x && p.squeezed.contains x then (last, out) else (some x, x :: out))
    (last, ([] : List Char))
  (last, out.reverse)

def copy (tool : String) (p : Plan) : (fuel : Nat) → (last : Option Char) → Action Nat
  | 0, _ => return 0
  | fuel + 1, last => do
    match ← readBlock 0 with
    | .error fault =>
      complain tool ("read error: " ++ fault.reason)
      return 1
    | .ok "" => return 0
    | .ok text =>
      let (last, out) := p.apply last text.toList
      print tool (String.ofList out)
      copy tool p fuel last

def kinds : List OptionKind :=
  [⟨'c', "complement", .nothing⟩, ⟨'C', "", .nothing⟩, ⟨'d', "delete", .nothing⟩,
    ⟨'s', "squeeze-repeats", .nothing⟩, ⟨'t', "truncate-set1", .nothing⟩, ⟨'A', "", .nothing⟩]

def operandFault? (r : Request) (operands : List String) : Option String :=
  let least := if r.deletes == r.squeezes then 2 else 1
  let most := if r.deletes && !r.squeezes then 1 else 2
  let missing := fun (text : String) => some ("missing operand" ++ text)
  match operands with
  | [] => missing ""
  | [a] =>
    if least = 1 then none
    else missing (" after " ++ Quoting.literal a ++
      if r.squeezes then "\nTwo strings must be given when both deleting and squeezing repeats."
      else "\nTwo strings must be given when translating.")
  | _ =>
    match operands[most]? with
    | none => none
    | some extra => some ("extra operand " ++ Quoting.literal extra ++
        if operands.length = 2 then
          "\nOnly one string may be given when deleting without squeezing repeats."
        else "")

def program : Program := fun _ c => do
  match Options.read kinds false c.arguments with
  | .error text =>
    complain c.name (text ++ advice c.name)
    return 1
  | .ok o =>
    let r : Request := ⟨o.has 'c' || o.has 'C', o.has 'd', o.has 's', o.has 't'⟩
    match operandFault? r o.operands with
    | some text =>
      complain c.name (text ++ advice c.name)
      return 1
    | none =>
      let first := o.operands.head?.getD ""
      let tell := fun (set : String) =>
        (remarks (set.length + 1) set.toList).forM fun text => complain c.name text
      tell first
      if (readSet first).toOption.isSome then o.operands[1]?.forM tell
      match plan r first o.operands[1]? with
      | .error text =>
        complain c.name text
        return 1
      | .ok p => copy c.name p manyPieces none

end ImageLinker.Tools.Tr
