import ImageLinker.Tools.Options
import ImageLinker.Unix.Program
import ImageLinker.Unix.Quoting
import ImageLinker.Unix.Text

/-! What tools have in common: how they print, complain and read lines. -/
namespace ImageLinker.Tools

open Unix Action

def complain (tool text : String) : Action Unit := do
  let _ ← ask (.write 2 (tool ++ ": " ++ text ++ "\n"))

/-- Prints a text. A tool that cannot print ends with the status of a failure. -/
def print (tool : String) (text : String) (failure : Nat := 1) (descriptor : Nat := 1) :
    Action Unit := do
  if !text.isEmpty then
    match ← ask (.write descriptor text) with
    | .ok _ => pure ()
    | .error fault =>
      complain tool ("write error: " ++ fault.reason)
      exit failure

def namedFile (path reason : String) : String := Quoting.fileName path ++ ": " ++ reason

def complainOf (tool path : String) (fault : Files.Fault) : Action Unit :=
  complain tool (namedFile path fault.reason)

def strictVariable : String := "POSIXLY_CORRECT"

def advice (tool : String) : String := "\nTry '" ++ tool ++ " --help' for more information."

/-- A tool with options. Bad ones give the status of a failure. -/
def withOptions (kinds : List OptionKind) (work : (tool : String) → Options → Action Nat) :
    Program := fun _ c => do
  match Options.read kinds (c.valueOf? strictVariable).isNone c.arguments with
  | .ok o => work c.name o
  | .error text =>
    complain c.name (text ++ advice c.name)
    return 1

def manyPieces : Nat := 1000000000

def again (work : Action Unit) : (fuel : Nat) → Action Unit
  | 0 => return ()
  | fuel + 1 => do
    work
    again work fuel

/-- An input that is being read, with what has been read and not been used. -/
structure Source where
  descriptor : Nat
  block : Nat := blockSize
  buffer : List Char := []
  ended : Bool := false
  fault : Option Files.Fault := none
  deriving DecidableEq, Repr, Inhabited

namespace Source

def fill (s : Source) : Action Source := do
  match ← ask (.read s.descriptor s.block none) with
  | .ok text =>
    if text.isEmpty then return { s with ended := true }
    return { s with buffer := s.buffer ++ text.toList }
  | .error fault => return { s with ended := true, fault := some fault }

/-- The next line without its end, and whether the end was there; none behind the last one. -/
def line (mark : Char) : (fuel : Nat) → Source → Action (Option (String × Bool) × Source)
  | 0, s => return (none, s)
  | fuel + 1, s => do
    let found := s.buffer.takeWhile (· != mark)
    match s.buffer.drop found.length with
    | _ :: rest => return (some (String.ofList found, true), { s with buffer := rest })
    | [] =>
      if !s.ended then line mark fuel (← s.fill)
      else if found.isEmpty then return (none, s)
      else return (some (String.ofList found, false), { s with buffer := [] })

def rest : (fuel : Nat) → (texts : List String) → Source → Action (String × Source)
  | 0, texts, s => return (String.join texts.reverse, s)
  | fuel + 1, texts, s => do
    let texts := String.ofList s.buffer :: texts
    if s.ended then return (String.join texts.reverse, { s with buffer := [] })
    rest fuel texts (← { s with buffer := [] }.fill)

def giveBack (s : Source) : Action Source := do
  ask (.unread s.descriptor s.buffer.length)
  return { s with buffer := [] }

end Source

def fileDescriptor : Nat := 3

def openInput (path : String) : Action (Except Files.Fault Source) := do
  if path = "-" then return .ok { descriptor := 0 }
  match ← openOn fileDescriptor path .read with
  | .ok _ => return .ok { descriptor := fileDescriptor }
  | .error fault => return .error fault

/-- How a tool tells of files that it cannot open or read. -/
structure Wording where
  opening : (path reason : String) → String := namedFile
  reading : (path reason : String) → String := namedFile

/-- Does work on each input in order. The answer tells whether all could be read. -/
def forInputs (tool : String) (w : Wording) (paths : List String) (state : σ)
    (work : (path : String) → Source → σ → Action (σ × Source)) : Action (σ × Bool) := do
  (if paths.isEmpty then ["-"] else paths).foldlM (fun (state, ok) path => do
    match ← openInput path with
    | .error fault =>
      complain tool (w.opening path fault.reason)
      return (state, false)
    | .ok source =>
      let (state, source) ← work path source state
      match source.fault with
      | some fault =>
        complain tool (w.reading path fault.reason)
        return (state, false)
      | none => return (state, ok)) (state, true)

def ownOutput? (s : Source) : Action (Option Position) := do
  match ← ask (.position s.descriptor), ← ask (.position 1) with
  | some input, some output => return if input.place = output.place then some input else none
  | _, _ => return none

/-- Printing in pieces that are not too small. -/
structure Output where
  tool : String
  failure : Nat := 1
  descriptor : Nat := 1
  texts : List String := []
  size : Nat := 0
  deriving Inhabited

namespace Output

/-- How much is kept before it is printed. -/
def limit : Nat := 4096

def flush (o : Output) : Action Output := do
  print o.tool (String.join o.texts.reverse) o.failure o.descriptor
  return { o with texts := [], size := 0 }

def add (o : Output) (text : String) : Action Output := do
  let o := { o with texts := text :: o.texts, size := o.size + text.length }
  if o.size < limit then return o else o.flush

end Output

def unit? (letters : List Char) : Option Nat :=
  let powers := "KMGTPEZYRQ".toList
  let power := fun (base : Nat) (c : Char) =>
    let c := if c == 'k' then 'K' else c
    (powers.idxOf? c).map fun n => base.pow (n + 1)
  match letters with
  | [] => some 1
  | ['b'] => some 512
  | [c] | [c, 'i', 'B'] => power 1024 c
  | [c, 'B'] => power 1000 c
  | _ => none

inductive AmountFault where
  | noNumber
  | tooLarge
  deriving DecidableEq, Repr, Inhabited

def amount (limit : Nat) (cs : List Char) : Except AmountFault Nat :=
  let (value, rest) := Text.numberPrefix 10 cs.length none cs
  match value, unit? rest with
  | some n, some factor => if n * factor < limit then .ok (n * factor) else .error .tooLarge
  | _, _ => .error .noNumber

end ImageLinker.Tools
