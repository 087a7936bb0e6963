import ImageLinker.Artifacts.Writing
import ImageLinker.Build
import ImageLinker.CommandLine
import ImageLinker.Compiler.Solc
import ImageLinker.Discovery
import ImageLinker.Hasher
import ImageLinker.Report
import ImageLinker.Yul.Shim

/-! Doing what a command asks for. The result is the text to be printed. -/
namespace ImageLinker.CommandLine

/-- What surrounds a command: variables, what runs other programs and what reads manifests, and how
the system meets the requests of a build and those for the files of its artifacts. -/
structure Surroundings where
  vars : Variables
  host : Host
  readManifest : (text : String) → Except LinkError Manifest
  system : System
  staging : Nat → Files.Attempt

def temporaryDirectory (vars : Variables) : String := (vars.lookup "TMPDIR").getD "/tmp"

def Surroundings.compiler (s : Surroundings) (m : Manifest) : Job Compiler := fun files =>
  let (program, files) := m.compilerProgram s.vars s.host files
  (.ok (Solc.compiler s.host program m.optimizeRuns m.timeout), files)

def shimTemplate (m : Manifest) : Job String :=
  match m.shimTemplate with
  | some path => Work.readText path
  | none => return Yul.conditionalInitcode

def addHash (s : Surroundings) (m : Manifest) (a : Artifacts) : Job Artifacts := do
  if !m.hash then return a
  return { a with initcodeHash := some (← (Hasher.mk m.hasher m.timeout).digest s.host a.initcode) }

def BuildRequest.run (r : BuildRequest) (s : Surroundings) : Job String := do
  let m ← r.toManifest s.readManifest
  let compiler ← s.compiler m
  let template ← shimTemplate m
  let context : BuildContext :=
    { layout := ← Work.ofExcept m.layout
      versions := m.versions
      workDirectory := m.workDirectory.getD (temporaryDirectory s.vars)
      jobs := m.jobs
      system := s.system }
  let built ← buildSeeded context compiler m.mode template (Module.ofPaths m.modules)
    (UInt64.ofNat (m.seed.getD 0))
  let a ← addHash s m built
  let _ ← a.write m.outputDirectory s.staging
  return Report.render a

def InspectRequest.run (r : InspectRequest) (s : Surroundings) : Job String := do
  let m : Manifest := { compiler := r.compiler, timeoutSeconds := r.timeoutSeconds }
  let compiler ← s.compiler m
  return Report.renderInspections (← inspect compiler r.file m.versions)

def Command.run (s : Surroundings) : Command → Job String
  | .build r => r.run s
  | .inspect r => r.run s

end ImageLinker.CommandLine
