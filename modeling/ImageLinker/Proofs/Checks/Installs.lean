import ImageLinker.Proofs.Checks.Basic
import ImageLinker.Proofs.Installs

/-!
The search of a root in one pass, with scores of 64 bits, and of several roots in turn. An entry is
looked into only if it is a directory whose score can still be taken, and it is taken only if there
is a file in it. As long as the scores fit, no check fails and the pass comes to the newest of all
installs.
-/
namespace ImageLinker.Checked

open Discovery
open Files (Path.join)

def score (v : Version) : Checked Nat := do
  let major ← number (v.major * 1000000)
  let minor ← number (v.minor * 1000)
  let both ← number (major + minor)
  number (both + v.patch)

/-- What one more entry of a root changes in the best score so far and its file. -/
def visit (files : Files.Tree) (root : String) (threshold : Nat) (best : Option (Nat × String))
    (name : String) : Checked (Option (Nat × String)) := do
  if files.isDirectory (Path.join root name) then
    let found ← score (.ofName name)
    if found < threshold ∨ best.any (found ≤ ·.1) then
      return best
    match executableIn files (Path.join root name) with
    | some path => return some (found, path)
    | none => return best
  else
    return best

def newestIn (files : Files.Tree) (root minimum : String) : Checked (Option String) := do
  let threshold ← score (.ofName minimum)
  let best ← (namesIn files root).foldlM (visit files root threshold) none
  return best.map (·.2)

def locate (files : Files.Tree) (roots : List String) (minimum : String) :
    Checked (Option String) :=
  (roots.filter files.isDirectory).findSomeM? fun root => newestIn files root minimum

variable {files : Files.Tree} {root minimum name : String} {best : Option Install}

theorem score_eq {v : Version} (h : v.score < UInt64.size) : score v = .ok v.score := by
  have hboth : v.major * 1000000 + v.minor * 1000 < UInt64.size :=
    Nat.lt_of_le_of_lt (Nat.le_add_right _ v.patch) h
  have hmajor : v.major * 1000000 < UInt64.size := Nat.lt_of_le_of_lt (Nat.le_add_right _ _) hboth
  have hminor : v.minor * 1000 < UInt64.size := Nat.lt_of_le_of_lt (Nat.le_add_left _ _) hboth
  rw [score, number_eq hmajor, ok_bind, number_eq hminor, ok_bind, number_eq hboth, ok_bind]
  exact number_eq h

def kept (i : Install) : Nat × String := (i.version.score, i.executable)

theorem namesIn_of_not_isDirectory (h : files.isDirectory name = false) :
    namesIn files name = [] := by
  unfold namesIn
  rw [h]
  split
  · next heq => cases heq
  · rfl

theorem executableIn_of_not_isDirectory (h : files.isDirectory name = false) :
    executableIn files name = none := by
  rw [executableIn, namesIn_of_not_isDirectory h]
  rfl

/-- One step of the pass is one step of the search among installs, if the entry is one. -/
theorem visit_eq {threshold : Version} (h : files.isDirectory (Path.join root name) = true →
      (Version.ofName name).score < UInt64.size) :
    visit files root threshold.score (best.map kept) name =
      .ok ((match executableIn files (Path.join root name) with
        | none => best
        | some path => keepNewer threshold best ⟨.ofName name, path⟩).map kept) := by
  unfold visit
  cases hdir : files.isDirectory (Path.join root name) with
  | false =>
    rw [executableIn_of_not_isDirectory hdir]
    rfl
  | true =>
    rw [if_pos rfl, score_eq (h hdir), ok_bind]
    -- The pass skips by the score before it looks for a file; the search has the file first.
    have hbest : (best.map kept).any ((Version.ofName name).score ≤ ·.1) =
        best.any ((Version.ofName name).score ≤ ·.version.score) := Option.any_map ..
    rw [hbest]
    cases executableIn files (Path.join root name) with
    | none => split <;> rfl
    | some path =>
      unfold keepNewer
      dsimp only
      split <;> rfl

/-- By induction on the entries, whatever has been kept of those ahead of them. -/
theorem foldlM_visit {threshold : Version} {names : List String}
    (h : ∀ name ∈ names, files.isDirectory (Path.join root name) = true →
      (Version.ofName name).score < UInt64.size) :
    names.foldlM (visit files root threshold.score) (best.map kept) =
      .ok (((names.filterMap fun name => (executableIn files (Path.join root name)).map fun path =>
        (⟨.ofName name, path⟩ : Install)).foldl (keepNewer threshold) best).map kept) := by
  induction names generalizing best with
  | nil => rfl
  | cons name names ih =>
    obtain ⟨hname, hnames⟩ := List.forall_mem_cons.mp h
    rw [List.foldlM_cons, visit_eq hname, ok_bind, ih hnames, List.filterMap_cons]
    cases executableIn files (Path.join root name) with
    | none => rfl
    | some path => rfl

/-- Where the scores of the minimum and of all directories fit, no check fails. -/
theorem newestIn_eq (hminimum : (Version.ofName minimum).score < UInt64.size)
    (h : ∀ name, HasEntry files root name → files.isDirectory (Path.join root name) = true →
      (Version.ofName name).score < UInt64.size) :
    newestIn files root minimum = .ok (Discovery.newestIn files root minimum) := by
  have hpass : (namesIn files root).foldlM (visit files root (Version.ofName minimum).score)
        (Option.map kept none) =
      .ok (((installsIn files root).foldl (keepNewer (.ofName minimum)) none).map kept) :=
    foldlM_visit fun name hname => h name (mem_namesIn.mp hname)
  rw [Option.map_none] at hpass
  rw [newestIn, score_eq hminimum, ok_bind, hpass, ok_bind]
  rw [Discovery.newestIn, newest_eq_foldl]
  refine congrArg Except.ok ?_
  rw [Option.map_map]
  rfl

/-- The scores of the minimum and of all directories of some roots fit. -/
structure Scored (files : Files.Tree) (roots : List String) (minimum : String) : Prop where
  minimum : (Version.ofName minimum).score < UInt64.size
  directories : ∀ root ∈ roots, ∀ name, HasEntry files root name →
    files.isDirectory (Path.join root name) = true → (Version.ofName name).score < UInt64.size

theorem locate_eq {roots : List String} (h : Scored files roots minimum) :
    locate files roots minimum = .ok (Discovery.locate files roots minimum) := by
  obtain ⟨hminimum, hdirectories⟩ := h
  induction roots with
  | nil => rfl
  | cons root roots ih =>
    obtain ⟨hroot, hroots⟩ := List.forall_mem_cons.mp hdirectories
    replace ih := ih hroots
    unfold locate at ih ⊢
    rw [Discovery.locate, List.findSome?_cons]
    cases hdir : files.isDirectory root with
    | false =>
      have hnone : Discovery.newestIn files root minimum = none := by
        rw [Discovery.newestIn, installsIn, namesIn_of_not_isDirectory hdir]
        rfl
      rw [List.filter_cons_of_neg (by simp [hdir]), ih, hnone]
      rfl
    | true =>
      rw [List.filter_cons_of_pos hdir, List.findSomeM?, newestIn_eq hminimum hroot, ok_bind]
      cases Discovery.newestIn files root minimum with
      | none => exact ih
      | some path => rfl

end ImageLinker.Checked
