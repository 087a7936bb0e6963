import ImageLinker.Manifest
import ImageLinker.Yaml.Decoding

/-!
A reader of manifests, chosen where the program starts. A field that a text does not give has its
default.
-/
namespace ImageLinker

open Yaml (Document Node Fault field)

def Mode.ofNode (d : Document) (n : Node) : Except Fault Mode := do
  let ofName : String → Except Fault Mode
    | "single" => .ok .single
    | "dual" => .ok .dual
    | name => .error (.unknownKey name)
  match ← d.resolve n with
  | .scalar tag style text =>
    match tag.bind Yaml.Tag.localName? with
    | some name =>
      let mode ← ofName name
      if style = .plain ∧ (text.isEmpty ∨ Yaml.isNullWord text) then return mode
      else throw (.expected "null")
    | none => ofName text
  | _ => throw (.expected "mode")

def EvmVersions.ofNode (d : Document) (n : Node) : Except Fault EvmVersions := do
  let given ← d.fields ["push0", "legacy"] n
  let defaults : EvmVersions := {}
  return {
    push0 := ← field d given "push0" Document.text defaults.push0
    legacy := ← field d given "legacy" Document.text defaults.legacy }

namespace Manifest

def fieldNames : List String :=
  ["modules", "section_shift", "mode", "output_dir", "solc", "evm_versions", "optimize_runs",
    "timeout_secs", "hash", "hasher", "seed", "jobs", "work_dir", "shim_template"]

/-- Numbers have the sizes in which they are used: a byte for the shift, four for the runs, eight
for all others. -/
def ofNode (d : Document) (n : Node) : Except Fault Manifest := do
  let given ← d.fields fieldNames n
  let defaults : Manifest := {}
  let path := Document.optional Document.text
  let shift := Document.natural UInt8.size
  let runs := Document.natural UInt32.size
  let count := Document.natural UInt64.size
  return {
    modules := ← field d given "modules" (Document.items Document.text) defaults.modules
    sectionShift := ← field d given "section_shift" shift defaults.sectionShift
    mode := ← field d given "mode" Mode.ofNode defaults.mode
    outputDirectory := ← field d given "output_dir" Document.text defaults.outputDirectory
    compiler := ← field d given "solc" path defaults.compiler
    versions := ← field d given "evm_versions" EvmVersions.ofNode defaults.versions
    optimizeRuns := ← field d given "optimize_runs" runs defaults.optimizeRuns
    timeoutSeconds := ← field d given "timeout_secs" count defaults.timeoutSeconds
    hash := ← field d given "hash" Document.truth defaults.hash
    hasher := ← field d given "hasher" Document.text defaults.hasher
    seed := ← field d given "seed" (Document.optional count) defaults.seed
    jobs := ← field d given "jobs" (Document.optional count) defaults.jobs
    workDirectory := ← field d given "work_dir" path defaults.workDirectory
    shimTemplate := ← field d given "shim_template" path defaults.shimTemplate }

def parse (text : String) : Except LinkError Manifest :=
  let read : Except Fault Manifest := do
    let d ← Document.parse text
    match d.root with
    | none => return {}
    | some root => ofNode d root
  read.mapError fun fault => .config (.malformed fault.message)

end Manifest

end ImageLinker
