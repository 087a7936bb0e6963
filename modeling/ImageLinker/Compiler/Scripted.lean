import ImageLinker.Compiler

/-!
A compiler that answers from a list of rules, for builds without an installed one. It finds the
probes in a source and prints the bytes that a real compiler makes of them.
-/
namespace ImageLinker.Scripted

/-- How the bytes for a zero offset are chosen. -/
inductive ZeroStyle where
  | automatic
  | push0
  | legacy
  deriving DecidableEq, Repr, Inhabited

inductive Piece where
  | text (s : String)
  | probes (style : ZeroStyle) (drop : Nat)
  deriving DecidableEq, Repr, Inhabited

inductive Answer where
  | fail (reason : String)
  | print (pieces : List Piece)
  deriving DecidableEq, Repr, Inhabited

structure Rule where
  needle : String := ""
  version : Option String := none
  answer : Answer
  deriving DecidableEq, Repr, Inhabited

/-- A probe as it stands in a source: its offset and the digits of its value. -/
structure Found where
  offset : Nat
  digits : String
  deriving DecidableEq, Repr, Inhabited

/-- Splits a text at the first occurrence of a mark; `front` is reversed and stands before it. -/
def cutFrom (mark front : List Char) : List Char → Option (List Char × List Char)
  | [] => if mark.isEmpty then some (front.reverse, []) else none
  | c :: rest =>
    if mark.isPrefixOf (c :: rest) then some (front.reverse, (c :: rest).drop mark.length)
    else cutFrom mark (c :: front) rest

/-- What stands in front of the first occurrence of a mark, and what follows it. -/
def cutAt (mark text : List Char) : Option (List Char × List Char) := cutFrom mark [] text

/-- The value of digits below 256, with a plus sign allowed in front. -/
def byteOfDigits (digits : List Char) : Option Nat :=
  let digits := match digits with
    | '+' :: rest => rest
    | all => all
  if digits.isEmpty || digits.any (!Hex.isDigit ·) then none
  else
    let value := digits.foldl (fun n c => 16 * n + ((Hex.nibble c.toUInt8).toOption.getD 0).toNat) 0
    if value < 256 then some value else none

def probeOfOperands (operands : List Char) : Option Found := do
  let (left, right) ← cutAt ",0x".toList operands
  return ⟨← byteOfDigits left, String.ofList right⟩

/-- The probes of a source in order. Each search goes on right behind the mark before. -/
def probesFrom : (fuel : Nat) → List Char → List Found
  | 0, _ => []
  | fuel + 1, source =>
    match cutAt " mstore(0x".toList source with
    | none => []
    | some (_, behind) =>
      match cutAt [')'] behind with
      | none => []
      | some (operands, _) => (probeOfOperands operands).toList ++ probesFrom fuel behind

def probes (source : String) : List Found := probesFrom (source.length + 1) source.toList

def hasPush0 (version : String) : Bool := ["shanghai", "cancun", "prague"].contains version

def probeText (style : ZeroStyle) (version : String) (p : Found) : String :=
  let short := match style with
    | .push0 => true
    | .legacy => false
    | .automatic => hasPush0 version
  Hex.ofNat 2 (0x5f + p.digits.length / 2) ++ p.digits ++
    (if p.offset == 0 && short then "5f" else "60" ++ Hex.ofNat 2 p.offset) ++ "52"

def pieceText (version : String) (found : List Found) : Piece → String
  | .text s => s
  | .probes style drop =>
    String.join ((found.take (found.length - drop)).map (probeText style version))

def answer (rules : List Rule) (source version : String) : Except InvocationFault String :=
  let fits := fun (r : Rule) =>
    (cutAt r.needle.toList source.toList).isSome && (r.version.getD version == version)
  match rules.find? fits with
  | none => .error (.stated "no scripted rule")
  | some ⟨_, _, .fail reason⟩ => .error (.stated reason)
  | some ⟨_, _, .print pieces⟩ => .ok (String.join (pieces.map (pieceText version (probes source))))

/-- Where the calls are recorded, one line each: the target and the number of probes. -/
def log : Files.Place := ["scripted-calls"]

def record (version source : String) (files : Files.Tree) : Files.Tree :=
  let before := match files.get? log with
    | some (.file bytes _) => bytes
    | _ => []
  let line := version ++ s!" {(probes source).length}\n"
  files.set log (.file (before ++ line.toUTF8.toList) false)

def compiler (rules : List Rule) : Compiler where
  name := "scripted-solc"
  compile path version files :=
    match files.readText path with
    | .error fault => (.error (.io (.stated "scripted compiler read") fault), files)
    | .ok source =>
      ((answer rules source version).mapError (.compilerInvocation "scripted-solc"),
        record version source files)

end ImageLinker.Scripted
