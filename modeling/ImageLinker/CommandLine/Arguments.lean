import ImageLinker.Artifacts

/-!
Reading arguments by rules: options that take a value or none, and values by position. A value is
checked when the next option or the end shows that nothing more belongs to it.
-/
namespace ImageLinker.CommandLine

/-- Why arguments are no command, or that help was asked for. -/
inductive Misusage where
  | help
  | missingCommand
  | unknownCommand
  | missingArgument
  | unknownArgument
  | invalidNumber
  | invalidValue
  | unexpectedValue
  | repeated
  deriving DecidableEq, Repr, Inhabited

inductive Value where
  | path (text : String)
  | number (n : Nat)
  | mode (mode : Mode)
  deriving DecidableEq, Repr, Inhabited

inductive ValueKind where
  | path
  | byte
  | number
  | mode
  deriving DecidableEq, Repr, Inhabited

structure Rule where
  name : String
  value : Option ValueKind
  many : Bool := false
  deriving DecidableEq, Repr, Inhabited

structure Rules where
  options : List Rule
  positional : Rule
  required : Bool
  deriving DecidableEq, Repr, Inhabited

/-- A number in decimal that may have a sign in front; zero may be negative. -/
def wholeNumber? (signed : Bool) (text : String) : Option Nat :=
  let ofDigits := fun (digits : List Char) =>
    if digits.isEmpty || digits.any (!·.isDigit) then none
    else some (digits.foldl (fun n c => 10 * n + (c.toNat - 48)) 0)
  match text.toList with
  | '+' :: digits => ofDigits digits
  | '-' :: digits => if signed then (ofDigits digits).filter (· = 0) else none
  | digits => ofDigits digits

def ValueKind.check (kind : ValueKind) (text : String) : Except Misusage Value :=
  match kind with
  | .path => if text.isEmpty then .error .invalidValue else .ok (.path text)
  | .byte =>
    match wholeNumber? true text with
    | some n => if n < UInt8.size then .ok (.number n) else .error .invalidNumber
    | none => .error .invalidNumber
  | .number =>
    match wholeNumber? false text with
    | some n => if n < UInt64.size then .ok (.number n) else .error .invalidNumber
    | none => .error .invalidNumber
  | .mode =>
    match text with
    | "single" => .ok (.mode .single)
    | "dual" => .ok (.mode .dual)
    | _ => .error .invalidValue

/-- What has been read: values by name, in the order given. -/
structure Given where
  values : List (String × Value) := []
  flags : List String := []
  deriving DecidableEq, Repr, Inhabited

namespace Given

def has (g : Given) (name : String) : Bool := g.values.any (·.1 == name) || g.flags.contains name

def path? (g : Given) (name : String) : Option String :=
  g.values.findSome? fun
    | (other, .path text) => if other = name then some text else none
    | _ => none

def paths (g : Given) (name : String) : List String :=
  g.values.filterMap fun
    | (other, .path text) => if other = name then some text else none
    | _ => none

def number? (g : Given) (name : String) : Option Nat :=
  g.values.findSome? fun
    | (other, .number n) => if other = name then some n else none
    | _ => none

def mode? (g : Given) (name : String) : Option Mode :=
  g.values.findSome? fun
    | (other, .mode m) => if other = name then some m else none
    | _ => none

end Given

/-- A rule whose values are still being read, and those read for it. -/
structure Pending where
  rule : Rule
  texts : List String
  deriving DecidableEq, Repr, Inhabited

structure Reading where
  given : Given := {}
  pending : Option Pending := none
  expecting : Bool := false
  positionals : Nat := 0
  deriving DecidableEq, Repr, Inhabited

namespace Reading

def add (g : Given) (rule : Rule) (kind : ValueKind) (texts : List String) :
    Except Misusage Given := do
  if texts.isEmpty then throw .invalidValue
  if !rule.many && g.has rule.name then throw .repeated
  let values ← texts.mapM kind.check
  return { g with values := g.values ++ values.map fun value => (rule.name, value) }

def settle (r : Reading) : Except Misusage Reading := do
  match r.pending with
  | none => return r
  | some ⟨rule, texts⟩ =>
    match rule.value with
    | none => return { r with pending := none }
    | some kind => return { r with given := ← add r.given rule kind texts, pending := none }

def flag (r : Reading) (rule : Rule) : Except Misusage Reading := do
  let r ← r.settle
  if !rule.many && r.given.has rule.name then throw .repeated
  let given := { r.given with flags := rule.name :: r.given.flags }
  return { r with given, expecting := false }

def help (r : Reading) : Except Misusage Reading := do
  let _ ← r.settle
  throw .help

/-- Splits a long option at the first equals sign. -/
def splitOption (text : List Char) : String × Option String :=
  match text.dropWhile (· != '=') with
  | [] => (String.ofList text, none)
  | _ :: value => (String.ofList (text.takeWhile (· != '=')), some (String.ofList value))

def long (rules : Rules) (r : Reading) (text : List Char) : Except Misusage Reading := do
  let (name, value) := splitOption text
  if name = "help" then
    if value.isSome then throw .unexpectedValue
    r.help
  else
    match rules.options.find? (·.name = name) with
    | none => throw .unknownArgument
    | some rule =>
      match rule.value, value with
      | none, some _ => throw .unexpectedValue
      | none, none => r.flag rule
      | some kind, some value =>
        let r ← r.settle
        return { r with given := ← add r.given rule kind [value], expecting := false }
      | some _, none =>
        return { ← r.settle with pending := some ⟨rule, []⟩, expecting := true }

/-- Reads an argument by its position. A value that may be given many times stays pending. -/
def positional (rules : Rules) (r : Reading) (text : String) : Except Misusage Reading := do
  let rule := rules.positional
  if !rule.many && r.positionals > 0 then throw .unknownArgument
  let r := { r with positionals := r.positionals + 1, expecting := false }
  match r.pending with
  | some ⟨other, texts⟩ =>
    if other.name = rule.name ∧ rule.many then
      return { r with pending := some ⟨rule, texts ++ [text]⟩ }
    else return { ← r.settle with pending := some ⟨rule, [text]⟩ }
  | none => return { r with pending := some ⟨rule, [text]⟩ }

def step (rules : Rules) (r : Reading) (argument : String) : Except Misusage Reading :=
  match argument.toList with
  | '-' :: '-' :: name => r.long rules name
  | '-' :: 'h' :: _ => r.help
  | '-' :: _ :: _ => .error .unknownArgument
  | _ =>
    match r.expecting, r.pending with
    | true, some ⟨rule, texts⟩ =>
      .ok { r with pending := some ⟨rule, texts ++ [argument]⟩, expecting := false }
    | _, _ => r.positional rules argument

def run (rules : Rules) : Reading → List String → Except Misusage Reading
  | r, [] => r.settle
  | r, argument :: rest => do
    if argument = "--" then (← rest.foldlM (positional rules) r).settle
    else run rules (← r.step rules argument) rest

end Reading

def Rules.read (rules : Rules) (arguments : List String) : Except Misusage Given := do
  let r ← Reading.run rules {} arguments
  if rules.required && !r.given.has rules.positional.name then throw .missingArgument
  return r.given

end ImageLinker.CommandLine
