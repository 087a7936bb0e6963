import ImageLinker.Yaml.Node

/-! Values of nodes. The type that is asked for decides how a scalar is read. -/
namespace ImageLinker.Yaml

def tagOf (name : String) : Tag := Tag.ofText ("tag:yaml.org,2002:" ++ name)

def isNullWord (text : String) : Bool := ["null", "Null", "NULL", "~"].contains text

def truth? (text : String) : Option Bool :=
  if ["true", "True", "TRUE"].contains text then some true
  else if ["false", "False", "FALSE"].contains text then some false
  else none

def ofDigits? (radix : Nat) (digits : List Char) : Option Nat :=
  if digits.isEmpty then none
  else digits.foldlM (fun n c => do
    let d ← hexValue? c
    if d < radix then some (radix * n + d) else none) 0

/-- A number without sign: in decimal without idle zeros, or in another radix that two characters
name. -/
def natural? (text : String) : Option Nat :=
  let chars := match text.toList with
    | '+' :: rest => rest
    | all => all
  match chars with
  | '0' :: 'x' :: digits => ofDigits? 16 digits
  | '0' :: 'o' :: digits => ofDigits? 8 digits
  | '0' :: 'b' :: digits => ofDigits? 2 digits
  | '0' :: _ :: _ => none
  | digits => ofDigits? 10 digits

def isPlainOrTagged (name : String) (tag : Option Tag) (style : Style) : Bool :=
  style = .plain || (style = .literal && tag = some (tagOf name))

def Node.isUnwritten : Node → Bool
  | .scalar _ .plain text => text.isEmpty
  | _ => false

namespace Document

def resolve (d : Document) : Node → Except Fault Node
  | .alias id =>
    match d.target? id with
    | some node => .ok node
    | none => .error (.undefinedAlias (toString id))
  | node => .ok node

def text (d : Document) (n : Node) : Except Fault String := do
  match ← d.resolve n with
  | .scalar _ _ text => return text
  | _ => throw (.expected "string")

def truth (d : Document) (n : Node) : Except Fault Bool := do
  match ← d.resolve n with
  | .scalar tag style text =>
    match isPlainOrTagged "bool" tag style, truth? text with
    | true, some b => return b
    | _, _ => throw (.expected "boolean")
  | _ => throw (.expected "boolean")

def natural (limit : Nat) (d : Document) (n : Node) : Except Fault Nat := do
  match ← d.resolve n with
  | .scalar tag style text =>
    match isPlainOrTagged "int" tag style, natural? text with
    | true, some value => if value < limit then return value else throw (.expected "smaller number")
    | _, _ => throw (.expected "number")
  | _ => throw (.expected "number")

/-- A value that may be missing. A plain scalar that is empty or a word for no value misses it; with
the tag of no value it has to. -/
def optional (read : Document → Node → Except Fault α) (d : Document) (n : Node) :
    Except Fault (Option α) := do
  match ← d.resolve n with
  | .scalar (some tag) .plain text =>
    if tag = tagOf "null" then
      if isNullWord text then return none else throw (.expected "null")
    else return some (← read d n)
  | .scalar none .plain text =>
    if text.isEmpty || isNullWord text then return none else return some (← read d n)
  | _ => return some (← read d n)

def items (read : Document → Node → Except Fault α) (d : Document) (n : Node) :
    Except Fault (List α) := do
  match ← d.resolve n with
  | .sequence _ items => items.mapM (read d)
  | node => if node.isUnwritten then return [] else throw (.expected "sequence")

/-- The values of a mapping by their keys, of which all are known and none is given twice. -/
def fields (known : List String) (d : Document) (n : Node) :
    Except Fault (List (String × Node)) := do
  match ← d.resolve n with
  | .mapping _ entries =>
    entries.foldlM (fun given (key, value) => do
      let name ← d.text key
      if !known.contains name then throw (.unknownKey name)
      if (given.lookup name).isSome then throw (.repeatedKey name)
      return (name, value) :: given) []
  | node => if node.isUnwritten then return [] else throw (.expected "mapping")

end Document

def field (d : Document) (given : List (String × Node)) (name : String)
    (read : Document → Node → Except Fault α) (default : α) : Except Fault α :=
  match given.lookup name with
  | some node => read d node
  | none => .ok default

end ImageLinker.Yaml
