import ImageLinker.Artifacts
import ImageLinker.Compiler
import ImageLinker.Initcode
import ImageLinker.Random
import ImageLinker.Yul.Header
import ImageLinker.ZeroPush

/-!
From module sources to images and initcode. A build is written once over the steps that need no
file, so that the same text serves steps that check what is not defined for all values.
-/
namespace ImageLinker

/-- How the system meets the requests of a build. -/
structure System where
  source : Variant → Module → Files.Attempt
  shim : Files.Attempt
  threadFault? : (threads : Nat) → Option String

/-- What every step of a build needs to know. -/
structure BuildContext where
  layout : Layout
  versions : EvmVersions
  workDirectory : String
  jobs : Option Nat
  system : System

def BuildContext.threadFault? (ctx : BuildContext) : Option LinkError := do
  let threads ← ctx.jobs
  return .config (.threadsNotStarted threads (← ctx.system.threadFault? threads))

/-- The code behind the last probe in compiler output, as a jump destination leads to it. -/
def CompiledModule.ofOutput (module : Module) (variant : Variant) (probes : List Probe)
    (output : List UInt8) : Except LinkError CompiledModule :=
  match probes.getLast?.bind fun last => last.codeStart? variant output with
  | none => .error (.sentinelNotFound module.path module.sectionIndex)
  | some start =>
    let code := Evm.Opcode.jumpDest :: output.drop start
    match variant with
    | .push0 =>
      let (code, sites) := ZeroPush.replace code
      .ok ⟨module, code, sites⟩
    | .legacy => .ok ⟨module, code, []⟩

/-- The random bytes of a build, a stream for each module and kind of target. -/
structure Streams where
  push0 : List ByteStream
  legacy : List ByteStream
  deriving DecidableEq, Repr, Inhabited

namespace Streams

/-- More words than the probes of a module take, but for very many rejected draws. -/
def wordsFor (plan : ProbePlan) (index : Nat) : Nat := 4 * (plan.cumulative[index]?.getD 0) + 64

def ofGenerators (plan : ProbePlan) (generators : List Generator) : List ByteStream :=
  generators.zipIdx.map fun (g, i) => g.stream (wordsFor plan i)

/-- All seeds are drawn before anything is compiled, those of the targets with `PUSH0` first. -/
def ofGenerator (mode : Mode) (plan : ProbePlan) (modules : Nat) (g : Generator) : Streams :=
  let (push0, g) := match mode with
    | .dual => g.fork modules
    | .single => ([], g)
  ⟨ofGenerators plan push0, ofGenerators plan (g.fork modules).1⟩

end Streams

/-- The steps of a build that need no file. An `ε` ends them. -/
structure Steps (ε : Type) where
  plan (layout : Layout) (modules : Nat) : Except ε ProbePlan
  probesFor (plan : ProbePlan) (index : Nat) : Except ε Nat
  draw (plan : ProbePlan) (index : Nat) (stream : ByteStream) : Except ε (List Probe × ByteStream)
  inject (source : String) (probes : List Probe) : Except ε (Option (List UInt8))
  bytesOfText (name path text : String) : Except ε (List UInt8)
  ofOutput (module : Module) (variant : Variant) (probes : List Probe) (output : List UInt8) :
    Except ε CompiledModule
  assemble (layout : Layout) (variant : Variant) (compiled : List CompiledModule) : Except ε Image
  conditional (compiled : List UInt8) (push0 legacy : Image) : Except ε (List UInt8)
  strayImages (count : Nat) : ε

namespace Steps

variable {ε : Type} [Coe LinkError ε] (steps : Steps ε) (ctx : BuildContext) (compiler : Compiler)

def compileSource (attempt : Files.Attempt) (source : List UInt8) (version : String) :
    Work ε (List UInt8) :=
  Work.withSource ctx.workDirectory attempt source fun path =>
    compiler.compileWith steps.bytesOfText path version

/-- Puts probes into a module's source, compiles a copy of it and cuts out the code behind them. -/
def compileModule (plan : ProbePlan) (variant : Variant) (module : Module) (stream : ByteStream) :
    Work ε CompiledModule := do
  let source ← Work.readText module.path
  let (probes, _) ← Work.ofResult (steps.draw plan module.sectionIndex stream)
  match ← Work.ofResult (steps.inject source probes) with
  | none => Work.fail (.runtimeObjectNotFound module.path)
  | some injected =>
    let output ← steps.compileSource ctx compiler (ctx.system.source variant module) injected
      (variant.version ctx.versions)
    Work.ofResult (steps.ofOutput module variant probes output)

/-- Compiles every module for one kind of target and assembles the image. -/
def buildImage (plan : ProbePlan) (variant : Variant) (modules : List Module)
    (streams : List ByteStream) : Work ε Image := do
  let compiled ← (modules.zip streams).mapM fun (module, stream) =>
    steps.compileModule ctx compiler plan variant module stream
  Work.ofResult (steps.assemble ctx.layout variant compiled)

def images (plan : ProbePlan) (modules : List Module) (streams : Streams) :
    (mode : Mode) → Work ε (List Image)
  | .single => do
    return [← steps.buildImage ctx compiler plan .legacy modules streams.legacy]
  | .dual => do
    let (push0, legacy) ← Work.both
      (steps.buildImage ctx compiler plan .push0 modules streams.push0)
      (steps.buildImage ctx compiler plan .legacy modules streams.legacy)
    return [push0, legacy]

def buildConditional (template : String) (push0 legacy : Image) : Work ε (List UInt8) := do
  if push0.length ≠ legacy.length then
    Work.fail (.variantMismatch push0.length legacy.length)
  let compiled ← steps.compileSource ctx compiler ctx.system.shim template.toUTF8.toList
    ctx.versions.legacy
  Work.ofResult (steps.conditional compiled push0 legacy)

def deploy (mode : Mode) (template : String) : (images : List Image) → Work ε Artifacts
  | [image] => do return ⟨mode, [image], ← Work.ofExcept (Initcode.single image), [], none⟩
  | [push0, legacy] => do
    let differing ← Work.ofExcept (Image.differingOffsets push0 legacy)
    let initcode ← steps.buildConditional ctx compiler template push0 legacy
    return ⟨mode, [push0, legacy], initcode, differing, none⟩
  | images => Work.ofResult (.error (steps.strayImages images.length))

/-- Goes from a plan for the probes of the modules to artifacts, in whatever way images are made. -/
def buildFrom (mode : Mode) (template : String) (modules : List Module)
    (images : ProbePlan → Work ε (List Image)) : Work ε Artifacts := do
  if modules.isEmpty then Work.fail (.config .noModules)
  let plan ← Work.ofResult (steps.plan ctx.layout modules.length)
  -- the number of all probes is logged
  let _ ← Work.ofResult (steps.probesFor plan modules.length)
  match ctx.threadFault? with
  | some fault => Work.fail fault
  | none => steps.deploy ctx compiler mode template (← images plan)

def build (mode : Mode) (template : String) (modules : List Module) (streams : Streams) :
    Work ε Artifacts :=
  steps.buildFrom ctx compiler mode template modules fun plan =>
    steps.images ctx compiler plan modules streams mode

/-- Steps that check no number and no position. -/
def unchecked : Steps Failure where
  plan layout modules := .ok (.make layout modules)
  probesFor plan index := (plan.probesFor index).mapError .misuse
  draw plan index stream := (plan.draw index stream).mapError .misuse
  inject source probes := .ok ((Yul.inject source probes).map fun text => text.toUTF8.toList)
  bytesOfText name path text := (Compiler.bytesOfText name path text).mapError .error
  ofOutput module variant probes output :=
    (CompiledModule.ofOutput module variant probes output).mapError .error
  assemble := Image.assemble
  conditional compiled push0 legacy :=
    (Initcode.conditional compiled push0 legacy).mapError .error
  strayImages count := .misuse (.strayImages count)

end Steps

section

variable (ctx : BuildContext) (compiler : Compiler)

def compileModule (plan : ProbePlan) (variant : Variant) (module : Module) (stream : ByteStream) :
    Job CompiledModule :=
  Steps.unchecked.compileModule ctx compiler plan variant module stream

def buildImage (plan : ProbePlan) (variant : Variant) (modules : List Module)
    (streams : List ByteStream) : Job Image :=
  Steps.unchecked.buildImage ctx compiler plan variant modules streams

def buildConditional (template : String) (push0 legacy : Image) : Job (List UInt8) :=
  Steps.unchecked.buildConditional ctx compiler template push0 legacy

def build (mode : Mode) (template : String) (modules : List Module) (streams : Streams) :
    Job Artifacts :=
  Steps.unchecked.build ctx compiler mode template modules streams

def buildSeeded (mode : Mode) (template : String) (modules : List Module) (seed : UInt64) :
    Job Artifacts :=
  build ctx compiler mode template modules
    (.ofGenerator mode (.make ctx.layout modules.length) modules.length ⟨seed⟩)

end

end ImageLinker
