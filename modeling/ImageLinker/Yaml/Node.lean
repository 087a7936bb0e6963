import ImageLinker.Yaml.Token.Lexer

/-!
The tree of a document. An alias stands for the node that its anchor was given to.
-/
namespace ImageLinker.Yaml

inductive Node where
  | alias (id : Nat)
  | scalar (tag : Option Tag) (style : Style) (text : String)
  | sequence (tag : Option Tag) (items : List Node)
  | mapping (tag : Option Tag) (entries : List (Node × Node))
  deriving Inhabited

/-- A node with an anchor. Anchors are numbered in the order in which they begin; the number of
names before it identifies the anchor. -/
structure Anchored where
  id : Nat
  order : Nat
  node : Node
  deriving Inhabited

/-- The root of a text's only document, or none if the text holds no document. -/
structure Document where
  root : Option Node
  anchored : List Anchored
  deriving Inhabited

/-- The node that an alias stands for: of those with its number the one that begins last. -/
def Document.target? (d : Document) (id : Nat) : Option Node :=
  let candidates := d.anchored.filter (·.id = id)
  let last := candidates.foldl (fun n a => max n a.order) 0
  (candidates.find? (·.order = last)).map (·.node)

structure Composer where
  tokens : List Token
  handles : List (String × Tag) := []
  names : List (String × Nat) := []
  anchors : Nat := 0
  anchored : List Anchored := []
  deriving Inhabited

abbrev Compose (α : Type) := StateT Composer (Except Fault) α

namespace Compose

def peek : Compose (Option Token) := return (← get).tokens.head?

def skip : Compose Unit := modify fun s => { s with tokens := s.tokens.drop 1 }

def accept (t : Token) : Compose Bool := do
  if (← peek) = some t then
    skip
    return true
  else return false

def sees (ts : List Token) : Compose Bool := do
  return (← peek).any ts.contains

def unwritten : Node := .scalar none .plain ""

def newAnchor (name : String) : Compose (Nat × Nat) := fun s =>
  let id := s.names.length
  .ok ((id, s.anchors),
    { s with names := (name, id) :: s.names.filter (·.1 ≠ name), anchors := s.anchors + 1 })

def resolveAlias (name : String) : Compose Node := do
  match (← get).names.lookup name with
  | some id => return .alias id
  | none => throw (.undefinedAlias name)

def resolveTag (handle : String) (suffix : Tag) : Compose Tag := do
  if handle.isEmpty then return suffix
  match (← get).handles.lookup handle with
  | some meaning => return meaning ++ suffix
  | none => throw (.undefinedTagHandle handle)

def properties : Compose (Option (Nat × Nat) × Option (String × Tag)) := do
  match ← peek with
  | some (.anchor name) =>
    skip
    match ← peek with
    | some (.tag handle suffix) =>
      skip
      return (some (← newAnchor name), some (handle, suffix))
    | _ => return (some (← newAnchor name), none)
  | some (.tag handle suffix) =>
    skip
    match ← peek with
    | some (.anchor name) =>
      skip
      return (some (← newAnchor name), some (handle, suffix))
    | _ => return (none, some (handle, suffix))
  | _ => return (none, none)

def absent (anchored : Bool) (tag : Option Tag) : Compose Node :=
  if anchored || tag.isSome then return .scalar tag .plain "" else throw (.expected "node content")

mutual

/-- Reads a node. In a block a block collection may follow, and where a mapping's key or value is
expected a sequence may lie in the mapping's own column. -/
def node (block indentless : Bool) : (fuel : Nat) → Compose Node
  | 0 => throw (.expected "end of nesting")
  | fuel + 1 => do
    if let some (.alias name) ← peek then
      skip
      return ← resolveAlias name
    let (anchor, tag) ← properties
    let tag ← tag.mapM fun (handle, suffix) => resolveTag handle suffix
    let content ← match ← peek with
      | some .blockEntry =>
        if indentless then
          pure (.sequence tag (← indentlessItems fuel))
        else absent anchor.isSome tag
      | some (.scalar text style) =>
        skip
        pure (.scalar tag style text)
      | some .flowSequenceStart =>
        skip
        pure (.sequence tag (← flowItems true fuel))
      | some .flowMappingStart =>
        skip
        pure (.mapping tag (← flowEntries true fuel))
      | some .blockSequenceStart =>
        if block then
          skip
          pure (.sequence tag (← blockItems fuel))
        else absent anchor.isSome tag
      | some .blockMappingStart =>
        if block then
          skip
          pure (.mapping tag (← blockEntries fuel))
        else absent anchor.isSome tag
      | _ => absent anchor.isSome tag
    if let some (id, order) := anchor then
      modify fun s => { s with anchored := ⟨id, order, content⟩ :: s.anchored }
    return content

def blockItems : (fuel : Nat) → Compose (List Node)
  | 0 => throw (.expected "end of nesting")
  | fuel + 1 => do
    if ← accept .blockEnd then return []
    if !(← accept .blockEntry) then throw (.expected "'-' indicator")
    let item ← if ← sees [.blockEntry, .blockEnd] then pure unwritten else node true false fuel
    return item :: (← blockItems fuel)

def indentlessItems : (fuel : Nat) → Compose (List Node)
  | 0 => throw (.expected "end of nesting")
  | fuel + 1 => do
    if !(← accept .blockEntry) then return []
    let item ← if ← sees [.blockEntry, .key, .value, .blockEnd] then pure unwritten
      else node true false fuel
    return item :: (← indentlessItems fuel)

def blockEntries : (fuel : Nat) → Compose (List (Node × Node))
  | 0 => throw (.expected "end of nesting")
  | fuel + 1 => do
    if ← accept .blockEnd then return []
    if !(← accept .key) then throw (.expected "key")
    let key ← if ← sees [.key, .value, .blockEnd] then pure unwritten else node true true fuel
    let value ← if ← accept .value then
        if ← sees [.key, .value, .blockEnd] then pure unwritten else node true true fuel
      else pure unwritten
    return (key, value) :: (← blockEntries fuel)

def flowItems (first : Bool) : (fuel : Nat) → Compose (List Node)
  | 0 => throw (.expected "end of nesting")
  | fuel + 1 => do
    if ← accept .flowSequenceEnd then return []
    if !first then
      if !(← accept .flowEntry) then throw (.expected "',' or ']'")
      if ← accept .flowSequenceEnd then return []
    let item ← if ← accept .key then do
        let entry ← flowPair fuel
        pure (.mapping none [entry])
      else node false false fuel
    return item :: (← flowItems false fuel)

/-- A key and its value that are an item of a sequence. A key that is not written takes the token in
its place. -/
def flowPair : (fuel : Nat) → Compose (Node × Node)
  | 0 => throw (.expected "end of nesting")
  | fuel + 1 => do
    let key ← if ← sees [.value, .flowEntry, .flowSequenceEnd] then
        skip
        pure unwritten
      else node false false fuel
    let value ← if ← accept .value then
        if ← sees [.flowEntry, .flowSequenceEnd] then pure unwritten else node false false fuel
      else pure unwritten
    return (key, value)

def flowEntries (first : Bool) : (fuel : Nat) → Compose (List (Node × Node))
  | 0 => throw (.expected "end of nesting")
  | fuel + 1 => do
    if ← accept .flowMappingEnd then return []
    if !first then
      if !(← accept .flowEntry) then throw (.expected "',' or '\x7d'")
      if ← accept .flowMappingEnd then return []
    let isKey ← accept .key
    let key ← if isKey && (← sees [.value, .flowEntry, .flowMappingEnd]) then pure unwritten
      else node false false fuel
    let value ← if isKey && (← accept .value) then
        if ← sees [.flowEntry, .flowMappingEnd] then pure unwritten else node false false fuel
      else pure unwritten
    return (key, value) :: (← flowEntries false fuel)

end

def standardHandles : List (String × Tag) :=
  [("!", Tag.ofText "!"), ("!!", Tag.ofText "tag:yaml.org,2002:")]

def directives : (tokens : List Token) → (version : Bool) → (handles : List (String × Tag)) →
    Except Fault (List Token × List (String × Tag))
  | .directive (.version major minor) :: rest, version, handles =>
    if version ∨ major ≠ 1 ∨ (minor ≠ 1 ∧ minor ≠ 2) then .error (.malformed "directive")
    else directives rest true handles
  | .directive (.tagHandle handle meaning) :: rest, version, handles =>
    if (handles.lookup handle).isSome then .error (.malformed "directive")
    else directives rest version ((handle, meaning) :: handles)
  | tokens, _, handles => .ok (tokens, handles)

/-- The root of the first document. The start of it need not be marked where no directives stand. -/
def root (fuel : Nat) : Compose (Option Node) := do
  let s ← get
  if s.tokens.isEmpty then return none
  let (tokens, handles) ← directives s.tokens false []
  set { s with tokens, handles := handles ++ standardHandles }
  if ← accept .documentStart then
    let isEmpty := match ← peek with
      | none | some .documentStart | some .documentEnd | some (.directive _) => true
      | _ => false
    if isEmpty then return some unwritten
  else if tokens.length < s.tokens.length then throw (.expected "document start")
  return some (← node true false fuel)

end Compose

def Document.ofTokens (tokens : List Token) : Except Fault Document := do
  let (root, s) ← (Compose.root (4 * tokens.length + 8)).run { tokens }
  if s.tokens.all (· = .documentEnd) then return ⟨root, s.anchored⟩
  else throw .severalDocuments

def Document.parse (text : String) : Except Fault Document := do
  Document.ofTokens (← Token.scan text)

end ImageLinker.Yaml
