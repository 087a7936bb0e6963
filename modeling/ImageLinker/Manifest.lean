import ImageLinker.Artifacts
import ImageLinker.Files.Path
import ImageLinker.Job
import ImageLinker.Layout

/-!
What a build is told: the modules in section order, and how to compile, link and write them. How a
text describes it is open.
-/
namespace ImageLinker

structure Manifest where
  modules : List String := []
  sectionShift : Nat := 6
  mode : Mode := .dual
  outputDirectory : String := "deployments"
  compiler : Option String := none
  versions : EvmVersions := {}
  optimizeRuns : Nat := 1
  timeoutSeconds : Nat := 120
  hash : Bool := true
  hasher : String := "cast"
  seed : Option Nat := none
  jobs : Option Nat := none
  workDirectory : Option String := none
  shimTemplate : Option String := none
  deriving DecidableEq, Repr, Inhabited

namespace Manifest

def layout (m : Manifest) : Except LinkError Layout := Layout.ofShift m.sectionShift

def validate (m : Manifest) : Except LinkError Unit := do
  let _ ← m.layout
  if m.modules.isEmpty then throw (.config .noModules)
  if m.modules.length ≥ Layout.maxSections then throw (.config (.tooManyModules m.modules.length))
  if m.timeoutSeconds = 0 then throw (.config .zeroTimeout)
  if m.jobs = some 0 then throw (.config .zeroJobs)

/-- Takes relative paths to be below a base. The compiler is a program's name and stays. -/
def rebase (m : Manifest) (base : String) : Manifest :=
  { m with
    modules := m.modules.map (Files.Path.join base)
    outputDirectory := Files.Path.join base m.outputDirectory
    shimTemplate := m.shimTemplate.map (Files.Path.join base)
    workDirectory := m.workDirectory.map (Files.Path.join base) }

def load (read : (text : String) → Except LinkError Manifest) (path : String) : Job Manifest := do
  let m ← Work.ofExcept (read (← Work.readText path))
  return m.rebase ((Files.Path.parent? path).getD "")

end Manifest

end ImageLinker
