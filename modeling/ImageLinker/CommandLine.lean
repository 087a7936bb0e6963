import ImageLinker.CommandLine.Arguments
import ImageLinker.Manifest

/-! The commands: what they are told, and the manifest that a build's arguments lead to. -/
namespace ImageLinker.CommandLine

structure BuildRequest where
  manifest : Option String := none
  modules : List String := []
  shift : Option Nat := none
  mode : Option Mode := none
  outputDirectory : Option String := none
  compiler : Option String := none
  timeoutSeconds : Option Nat := none
  skipHash : Bool := false
  seed : Option Nat := none
  jobs : Option Nat := none
  deriving DecidableEq, Repr, Inhabited

structure InspectRequest where
  file : String
  compiler : Option String := none
  timeoutSeconds : Nat := 120
  deriving DecidableEq, Repr, Inhabited

inductive Command where
  | build (request : BuildRequest)
  | inspect (request : InspectRequest)
  deriving DecidableEq, Repr, Inhabited

def buildRules : Rules where
  options :=
    [⟨"manifest", some .path, false⟩, ⟨"shift", some .byte, false⟩, ⟨"mode", some .mode, false⟩,
      ⟨"out-dir", some .path, false⟩, ⟨"solc", some .path, false⟩, ⟨"timeout", some .number, false⟩,
      ⟨"no-hash", none, false⟩, ⟨"seed", some .number, false⟩, ⟨"jobs", some .number, false⟩]
  positional := ⟨"modules", some .path, true⟩
  required := false

def inspectRules : Rules where
  options := [⟨"solc", some .path, false⟩, ⟨"timeout", some .number, false⟩]
  positional := ⟨"file", some .path, false⟩
  required := true

def BuildRequest.ofGiven (g : Given) : BuildRequest where
  manifest := g.path? "manifest"
  modules := g.paths "modules"
  shift := g.number? "shift"
  mode := g.mode? "mode"
  outputDirectory := g.path? "out-dir"
  compiler := g.path? "solc"
  timeoutSeconds := g.number? "timeout"
  skipHash := g.has "no-hash"
  seed := g.number? "seed"
  jobs := g.number? "jobs"

def InspectRequest.ofGiven (g : Given) : InspectRequest where
  file := (g.path? "file").getD ""
  compiler := g.path? "solc"
  timeoutSeconds := (g.number? "timeout").getD 120

def commandNames : List String := ["build", "inspect", "help"]

def helpOn : List String → Misusage
  | [] => .help
  | [name] => if commandNames.contains name then .help else .unknownCommand
  | _ => .unknownCommand

def behindDashes : List String → Misusage
  | [] => .missingCommand
  | name :: _ => if commandNames.contains name then .unknownArgument else .unknownCommand

def Command.parse : List String → Except Misusage Command
  | [] => .error .missingCommand
  | "build" :: rest => return .build (.ofGiven (← buildRules.read rest))
  | "inspect" :: rest => return .inspect (.ofGiven (← inspectRules.read rest))
  | "help" :: rest => .error (helpOn rest)
  | "--" :: rest => .error (behindDashes rest)
  | "--help" :: _ => .error .help
  | other :: _ =>
    match other.toList with
    | '-' :: 'h' :: _ => .error .help
    | '-' :: '-' :: name =>
      .error (if (Reading.splitOption name).1 = "help" then .unexpectedValue else .unknownArgument)
    | '-' :: _ :: _ => .error .unknownArgument
    | _ => .error .unknownCommand

def defaultManifest : String := "sectlink.yaml"

namespace BuildRequest

def override (r : BuildRequest) (m : Manifest) : Manifest :=
  { m with
    modules := if r.modules.isEmpty then m.modules else r.modules
    sectionShift := r.shift.getD m.sectionShift
    mode := r.mode.getD m.mode
    outputDirectory := r.outputDirectory.getD m.outputDirectory
    compiler := r.compiler <|> m.compiler
    timeoutSeconds := r.timeoutSeconds.getD m.timeoutSeconds
    hash := m.hash && !r.skipHash
    seed := r.seed <|> m.seed
    jobs := r.jobs <|> m.jobs }

section

variable (r : BuildRequest) (read : (text : String) → Except LinkError Manifest)

/-- The manifest in the named file, else in the default file where there is one, else without any
field given. -/
def base : Job Manifest :=
  match r.manifest with
  | some path => Manifest.load read path
  | none => fun files =>
    if files.isFile defaultManifest then Manifest.load read defaultManifest files
    else (.ok {}, files)

def toManifest : Job Manifest := do
  let m := r.override (← r.base read)
  Work.ofExcept m.validate
  return m

end

end BuildRequest

end ImageLinker.CommandLine
