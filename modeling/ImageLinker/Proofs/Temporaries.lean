import ImageLinker.Job

/-! A temporary file never takes the place of another one, and nothing is left of it behind work
that leaves the files alone. -/
namespace ImageLinker

namespace Files.Tree

variable {t t' : Tree} {place : Place} {dir first last path : String} {bytes : List UInt8}
  {a : Attempt}

theorem get?_eq_none_iff : t.get? place = none ↔ place ≠ [] ∧ ∀ e ∈ t.entries, e.1 ≠ place := by
  unfold get?
  by_cases h : place = []
  · simp [h]
  · simp [h]

/-- Taking a new entry away again restores the files. -/
theorem erase_set (h : t.get? place = none) (entry : Entry) :
    (t.set place entry).erase place = t := by
  have hentries : t.entries.filter (·.1 ≠ place) = t.entries :=
    List.filter_eq_self.mpr fun e he => decide_eq_true ((get?_eq_none_iff.mp h).2 e he)
  have herased : (t.set place entry).entries.filter (·.1 ≠ place) = t.entries := by
    rw [set, hentries, List.filter_cons_of_neg (by simp), hentries]
  exact congrArg (Tree.mk · t.workingDirectory) herased

theorem set_set (t : Tree) (place : Place) (first second : Entry) :
    (t.set place first).set place second = t.set place second := by
  have hentries : (t.set place first).entries.filter (·.1 ≠ place) =
      t.entries.filter (·.1 ≠ place) := by
    rw [set, List.filter_cons_of_neg (by simp), List.filter_filter]
    simp only [Bool.and_self]
  exact congrArg (fun entries => Tree.mk ((place, second) :: entries) t.workingDirectory) hentries

theorem firstFree?_eq_some {paths : List String}
    (h : t.firstFree? paths = .ok (some (path, place))) :
    path ∈ paths ∧ t.resolve path = .ok place ∧ t.get? place = none := by
  induction paths with
  | nil => cases h
  | cons tried rest ih =>
    rw [firstFree?] at h
    cases hresolve : t.resolve tried with
    | error fault =>
      rw [hresolve] at h
      cases h
    | ok found =>
      rw [hresolve] at h
      dsimp only at h
      split at h
      · next hfree =>
        cases h
        exact ⟨List.mem_cons_self, hresolve, Option.isNone_iff_eq_none.mp hfree⟩
      · exact (ih h).imp_left (List.mem_cons_of_mem tried)

/-- A temporary file is a new entry under one of the names that were tried. -/
theorem createTemporary_eq_ok (h : t.createTemporary dir first last a = .ok (path, place, t')) :
    (∃ middle ∈ a.middles, t.resolve (Path.join (Path.join (Path.ofNames t.workingDirectory) dir)
        (first ++ middle ++ last)) = .ok place) ∧
      t.get? place = none ∧ a.refusal? = none ∧ t' = t.set place (.file [] false) := by
  unfold createTemporary at h
  dsimp only at h
  cases hfree : t.firstFree? (a.middles.map fun middle =>
      Path.join (Path.join (Path.ofNames t.workingDirectory) dir) (first ++ middle ++ last)) with
  | error fault =>
    rw [hfree] at h
    cases h
  | ok found =>
    rw [hfree] at h
    cases found with
    | none => cases h
    | some found =>
      obtain ⟨path', place'⟩ := found
      obtain ⟨hpath, hresolve, hnone⟩ := firstFree?_eq_some hfree
      obtain ⟨middle, hmiddle, rfl⟩ := List.mem_map.mp hpath
      cases hrefusal : a.refusal? with
      | some fault =>
        simp only [hrefusal] at h
        cases h
      | none =>
        simp only [hrefusal] at h
        cases h
        exact ⟨⟨middle, hmiddle, hresolve⟩, hnone, rfl, rfl⟩

/-- The file that a request comes to where it is met: its path, its place, and the files with it. -/
def temporary? (t : Tree) (dir first last : String) (bytes : List UInt8) (a : Attempt) :
    Option (String × Place × Tree) :=
  if a.shortage?.isSome then none
  else (t.createTemporary dir first last a).toOption.map fun (path, place, _) =>
    (path, place, t.set place (.file bytes false))

theorem isSome_temporary? (t : Tree) (dir first last : String) (bytes bytes' : List UInt8)
    (a : Attempt) : (t.temporary? dir first last bytes a).isSome =
      (t.temporary? dir first last bytes' a).isSome := by
  unfold temporary?
  split
  · rfl
  · rw [Option.isSome_map, Option.isSome_map]

theorem temporary?_eq_some (h : t.temporary? dir first last bytes a = some (path, place, t')) :
    t.createTemporary dir first last a = .ok (path, place, t.set place (.file [] false)) ∧
      a.shortage? = none ∧ t.get? place = none ∧ t' = t.set place (.file bytes false) := by
  unfold temporary? at h
  split at h
  · cases h
  · next hshortage =>
    cases hcreate : t.createTemporary dir first last a with
    | error fault =>
      rw [hcreate] at h
      cases h
    | ok created =>
      obtain ⟨path', place', made⟩ := created
      obtain ⟨_, hnone, _, rfl⟩ := createTemporary_eq_ok hcreate
      rw [hcreate] at h
      cases h
      exact ⟨rfl, Option.not_isSome_iff_eq_none.mp hshortage, hnone, rfl⟩

/-- A request that is not met finds no file made, or one that does not take its bytes. -/
theorem temporary?_eq_none (h : t.temporary? dir first last bytes a = none) :
    (∃ fault, t.createTemporary dir first last a = .error fault) ∨
      ∃ path place fault taken,
        t.createTemporary dir first last a = .ok (path, place, t.set place (.file [] false)) ∧
        t.get? place = none ∧ a.shortage? = some (fault, taken) := by
  cases hcreate : t.createTemporary dir first last a with
  | error fault => exact .inl ⟨fault, rfl⟩
  | ok created =>
    obtain ⟨path, place, made⟩ := created
    obtain ⟨_, hnone, _, rfl⟩ := createTemporary_eq_ok hcreate
    unfold temporary? at h
    cases hshortage : a.shortage? with
    | none =>
      rw [hcreate, hshortage] at h
      cases h
    | some shortage => exact .inr ⟨path, place, shortage.1, shortage.2, rfl, hnone, rfl⟩

/-- Where the system makes the file and takes its bytes, they stand in it. -/
theorem fill_of_none (h : a.shortage? = none) (t : Tree) (path : String) (place : Place)
    (bytes : List UInt8) : (t.set place (.file [] false)).fill path place bytes a =
      (.ok (), t.set place (.file bytes false)) := by
  rw [fill, h, set_set]

theorem fill_of_some {fault : Fault} {taken : Nat} (h : a.shortage? = some (fault, taken))
    (hfree : t.get? place = none) (path : String) (bytes : List UInt8) : ∃ short,
      (t.set place (.file [] false)).fill path place bytes a =
        (.error (.located fault path), short) ∧ short.erase place = t := by
  refine ⟨t.set place (.file (bytes.take taken) false), ?_, erase_set hfree _⟩
  rw [fill, h]
  dsimp only
  rw [set_set]

end Files.Tree

namespace Work

variable {ε α : Type} [Coe LinkError ε] {dir : String} {a : Files.Attempt} {source : List UInt8}
  {work : String → Work ε α} {files : Files.Tree}

theorem withSource_of_some {path : String} {place : Files.Place} {files' : Files.Tree}
    (h : files.temporary? dir "tmp" ".yul" source a = some (path, place, files')) :
    withSource dir a source work files =
      ((work path files').1, (work path files').2.erase place) := by
  obtain ⟨hcreate, hshortage, -, rfl⟩ := Files.Tree.temporary?_eq_some h
  unfold withSource
  simp only [hcreate, Files.Tree.fill_of_none hshortage]
  rfl

/-- The steps that fail where a source cannot be put into a directory. -/
inductive SourceStep (dir : String) : FileStep → Prop where
  | create : SourceStep dir (.createTemporary dir)
  | write (path : String) : SourceStep dir (.write path)

/-- How a request for a source fails does not depend on the work that it is for. -/
theorem exists_withSource_of_none
    (h : files.temporary? dir "tmp" ".yul" source a = none) : ∃ step fault, SourceStep dir step ∧
      ∀ {ε α : Type} [Coe LinkError ε] (work : String → Work ε α),
        withSource dir a source work files = (.error ↑(LinkError.io step fault), files) := by
  rcases Files.Tree.temporary?_eq_none h with
    ⟨fault, hcreate⟩ | ⟨path, place, fault, taken, hcreate, hfree, hshortage⟩
  · refine ⟨_, fault, .create, fun work => ?_⟩
    unfold withSource
    simp only [hcreate]
  · obtain ⟨short, hfill, herase⟩ := Files.Tree.fill_of_some hshortage hfree path source
    refine ⟨_, .located fault path, .write path, fun work => ?_⟩
    unfold withSource
    simp only [hcreate, hfill, herase]

/-- Behind work that leaves the files alone they are what they were ahead of it. -/
theorem withSource_files (hwork : ∀ path files, (work path files).2 = files) (files : Files.Tree) :
    (withSource dir a source work files).2 = files := by
  cases htemporary : files.temporary? dir "tmp" ".yul" source a with
  | none =>
    obtain ⟨step, fault, -, hall⟩ := exists_withSource_of_none htemporary
    rw [hall]
  | some opened =>
    obtain ⟨path, place, files'⟩ := opened
    obtain ⟨-, -, hfree, rfl⟩ := Files.Tree.temporary?_eq_some htemporary
    rw [withSource_of_some htemporary, hwork]
    exact Files.Tree.erase_set hfree _

end Work

end ImageLinker
