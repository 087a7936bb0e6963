import ImageLinker.Proofs.Places
import ImageLinker.Proofs.Versions

/-!
What roots hold, and which install is found in one: the newest of those that reach the minimum.
-/
namespace ImageLinker.Discovery

open Files (Path.join)

def HasEntry (files : Files.Tree) (path name : String) : Prop :=
  ∃ place, files.resolve path = .ok place ∧ files.get? place = some .directory ∧
    (files.get? (place ++ [name])).isSome

def pathOf (root version file : String) : String := Path.join (Path.join root version) file

/-- Below a root there is a directory named for a version, and in it a file. -/
structure Holds (files : Files.Tree) (root version file : String) : Prop where
  directory : HasEntry files root version
  entry : HasEntry files (Path.join root version) file
  isFile : files.isFile (pathOf root version file) = true

def heldIn (files : Files.Tree) (root : String) : List (String × String) :=
  (namesIn files root).flatMap fun version =>
    ((namesIn files (Path.join root version)).filter fun file =>
      files.isFile (pathOf root version file)).map (version, ·)

def filesAt (places : List Files.Place) : Files.Tree :=
  places.foldl (fun files place => files.withFile place [] true) {}

variable {files files' : Files.Tree} {root version file minimum path : String}

theorem mem_namesAt {place : Files.Place} {name : String} :
    name ∈ files.namesAt place ↔ (files.get? (place ++ [name])).isSome := by
  have hne : place ++ [name] ≠ [] := by simp
  unfold Files.Tree.namesAt Files.Tree.get?
  rw [if_neg hne, Option.isSome_map, List.find?_isSome, List.mem_filterMap]
  constructor
  · rintro ⟨⟨here, entry⟩, hmem, hlast⟩
    dsimp only at hlast
    split at hlast
    · next hplace =>
      obtain ⟨front, rfl⟩ := List.getLast?_eq_some_iff.mp hlast
      rw [List.dropLast_concat] at hplace
      exact ⟨_, hmem, by simp [hplace]⟩
    · cases hlast
  · rintro ⟨⟨here, entry⟩, hmem, heq⟩
    obtain rfl : here = place ++ [name] := by simpa using heq
    exact ⟨_, hmem, by simp⟩

theorem isDirectory_iff_get? {place : Files.Place} (hpath : files.resolve path = .ok place) :
    files.isDirectory path = true ↔ files.get? place = some .directory := by
  rw [Files.Tree.isDirectory_iff, hpath]
  constructor
  · rintro ⟨other, hother, hget⟩
    cases hother
    exact hget
  · intro hget
    exact ⟨place, rfl, hget⟩

theorem mem_namesIn {name : String} : name ∈ namesIn files path ↔ HasEntry files path name := by
  unfold namesIn HasEntry
  cases hpath : files.resolve path with
  | error fault => exact iff_of_false List.not_mem_nil nofun
  | ok place =>
    have hdirectory := isDirectory_iff_get? hpath
    cases hdir : files.isDirectory path with
    | false =>
      rw [hdir] at hdirectory
      refine iff_of_false List.not_mem_nil ?_
      rintro ⟨other, hother, hget, _⟩
      cases hother
      exact Bool.false_ne_true (hdirectory.mpr hget)
    | true =>
      dsimp only
      rw [mem_namesAt]
      constructor
      · intro h
        exact ⟨place, rfl, hdirectory.mp hdir, h⟩
      · rintro ⟨other, hother, _, h⟩
        cases hother
        exact h

theorem mem_heldIn : (version, file) ∈ heldIn files root ↔ Holds files root version file := by
  simp only [heldIn, List.mem_flatMap, List.mem_map, List.mem_filter, mem_namesIn]
  constructor
  · rintro ⟨_, hversion, _, ⟨hfile, his⟩, heq⟩
    cases heq
    exact ⟨hversion, hfile, his⟩
  · rintro ⟨hversion, hfile, his⟩
    exact ⟨version, hversion, file, ⟨hfile, his⟩, rfl⟩

/-! The order in which entries are listed does not matter. -/
section Order

variable (hbase : files'.workingDirectory = files.workingDirectory)
  (hget : ∀ place, files'.get? place = files.get? place)

include hbase hget

theorem lookup_of_get?_eq {entry : Files.Entry} (h : files.lookup path = .ok entry) :
    files'.lookup path = .ok entry := by
  obtain ⟨place, hpath, hentry⟩ := Files.Tree.lookup_eq_ok_iff.mp h
  have hpath' := Files.Tree.resolve_mono hpath hbase fun p hp => (hget p).trans hp
  exact Files.Tree.lookup_eq_ok_iff.mpr ⟨place, hpath', (hget place).trans hentry⟩

theorem isDirectory_of_get?_eq (h : files.isDirectory path = true) :
    files'.isDirectory path = true := by
  unfold Files.Tree.isDirectory at h ⊢
  split at h
  · next hlookup => rw [lookup_of_get?_eq hbase hget hlookup]
  · cases h

theorem isFile_of_get?_eq (h : files.isFile path = true) : files'.isFile path = true := by
  unfold Files.Tree.isFile at h ⊢
  split at h
  · next hlookup => rw [lookup_of_get?_eq hbase hget hlookup]
  · cases h

theorem HasEntry.of_get?_eq {name : String} (h : HasEntry files path name) :
    HasEntry files' path name := by
  obtain ⟨place, hpath, hdir, hname⟩ := h
  refine ⟨place, Files.Tree.resolve_mono hpath hbase fun p hp => (hget p).trans hp, ?_, ?_⟩
  · rw [hget, hdir]
  · rw [hget]
    exact hname

theorem Holds.of_get?_eq (h : Holds files root version file) : Holds files' root version file where
  directory := h.directory.of_get?_eq hbase hget
  entry := h.entry.of_get?_eq hbase hget
  isFile := isFile_of_get?_eq hbase hget h.isFile

end Order

theorem Holds.isDirectory (h : Holds files root version file) :
    files.isDirectory (Path.join root version) = true := by
  obtain ⟨place, hpath, hdir, _⟩ := h.entry
  exact Files.Tree.isDirectory_iff.mpr ⟨place, hpath, hdir⟩

/-- What one more install changes: it is taken unless it does not reach the minimum or does not
exceed the best one so far. -/
def keepNewer (minimum : Version) (best : Option Install) (i : Install) : Option Install :=
  if i.version.score < minimum.score ∨ best.any (i.version.score ≤ ·.version.score) then best
  else some i

theorem keepNewer_none (minimum : Version) (i : Install) :
    keepNewer minimum none i = if i.version.score < minimum.score then none else some i := by
  unfold keepNewer
  refine if_congr ?_ rfl rfl
  rw [Option.any_none, or_iff_left Bool.false_ne_true]

theorem keepNewer_some (minimum : Version) (top i : Install) : keepNewer minimum (some top) i =
    if i.version.score < minimum.score ∨ i.version.score ≤ top.version.score then some top
    else some i := by
  unfold keepNewer
  refine if_congr ?_ rfl rfl
  rw [Option.any_some, decide_eq_true_iff]

theorem newest_eq_foldl (minimum : Version) (installs : List Install) :
    newest minimum installs = installs.foldl (keepNewer minimum) none := by
  unfold newest
  congr 1
  funext best i
  cases best with
  | none => rw [keepNewer_none]
  | some top =>
    rw [keepNewer_some]
    by_cases hold : i.version.score < minimum.score
    · rw [if_pos hold, if_pos (.inl hold)]
    · rw [if_neg hold]
      exact if_congr (or_iff_right hold).symm rfl rfl

def Best (minimum : Version) (installs : List Install) : Option Install → Prop
  | none => ∀ i ∈ installs, i.version.score < minimum.score
  | some top => top ∈ installs ∧ minimum.score ≤ top.version.score ∧
      ∀ i ∈ installs, i.version.score ≤ top.version.score

theorem Best.keepNewer {minimum : Version} {installs : List Install} {best : Option Install}
    (h : Best minimum installs best) (i : Install) :
    Best minimum (installs ++ [i]) (keepNewer minimum best i) := by
  have hall {p : Install → Prop} (hbefore : ∀ j ∈ installs, p j) (hlast : p i) :
      ∀ j ∈ installs ++ [i], p j :=
    List.forall_mem_append.mpr ⟨hbefore, List.forall_mem_singleton.mpr hlast⟩
  have hmem : i ∈ installs ++ [i] := List.mem_append_right _ List.mem_cons_self
  cases best with
  | none =>
    rw [keepNewer_none]
    split
    · next hold => exact hall h hold
    · next hreach =>
      have hreach := Nat.le_of_not_lt hreach
      exact ⟨hmem, hreach, hall (fun j hj => Nat.le_trans (Nat.le_of_lt (h j hj)) hreach)
        (Nat.le_refl _)⟩
  | some top =>
    obtain ⟨htop, hreach, hmost⟩ := h
    rw [keepNewer_some]
    split
    · next hskip =>
      have hle : i.version.score ≤ top.version.score := by omega
      exact ⟨List.mem_append_left _ htop, hreach, hall hmost hle⟩
    · next htake =>
      obtain ⟨hreach', hgt⟩ := not_or.mp htake
      refine ⟨hmem, Nat.le_of_not_lt hreach', hall (fun j hj => ?_) (Nat.le_refl _)⟩
      have hle := hmost j hj
      omega

/-- By induction on the installs from the last one on, with one step for each of them. -/
theorem best_newest (minimum : Version) (installs : List Install) :
    Best minimum installs (newest minimum installs) := by
  rw [newest_eq_foldl]
  induction installs using List.reverseRecOn with
  | nil =>
    intro i hi
    cases hi
  | append_singleton installs i ih =>
    rw [List.foldl_append, List.foldl_cons, List.foldl_nil]
    exact ih.keepNewer i

theorem exists_of_mem_installsIn {i : Install} (h : i ∈ installsIn files root) :
    ∃ version file, Holds files root version file ∧
      i = ⟨.ofName version, pathOf root version file⟩ := by
  obtain ⟨version, hversion, hi⟩ := List.mem_filterMap.mp h
  obtain ⟨path, hpath, rfl⟩ := Option.map_eq_some_iff.mp hi
  obtain ⟨file, hfile, rfl⟩ := List.mem_map.mp (List.mem_of_find?_eq_some hpath)
  exact ⟨version, file, ⟨mem_namesIn.mp hversion, mem_namesIn.mp hfile, List.find?_some hpath⟩, rfl⟩

theorem Holds.exists_install (h : Holds files root version file) :
    ∃ i ∈ installsIn files root, i.version = .ofName version := by
  have hsome : (executableIn files (Path.join root version)).isSome := by
    rw [executableIn, List.find?_isSome]
    exact ⟨_, List.mem_map.mpr ⟨file, mem_namesIn.mpr h.entry, rfl⟩, h.isFile⟩
  obtain ⟨path, hpath⟩ := Option.isSome_iff_exists.mp hsome
  refine ⟨⟨.ofName version, path⟩, List.mem_filterMap.mpr ⟨version, ?_, ?_⟩, rfl⟩
  · exact mem_namesIn.mpr h.directory
  · rw [hpath]
    rfl

/-- A file below a root whose version reaches the minimum. -/
structure Eligible (files : Files.Tree) (minimum root version file : String) : Prop where
  holds : Holds files root version file
  reaches : (Version.ofName minimum).carried ≤ (Version.ofName version).carried

/-- Nothing that reaches the minimum in some roots has a newer version. -/
def NoneNewer (files : Files.Tree) (minimum : String) (roots : List String) (version : String) :
    Prop :=
  ∀ root ∈ roots, ∀ other file, Eligible files minimum root other file →
    (Version.ofName other).carried ≤ (Version.ofName version).carried

theorem newestIn_eq_none_iff : newestIn files root minimum = none ↔
    ∀ version file, ¬ Eligible files minimum root version file := by
  have hbest := best_newest (.ofName minimum) (installsIn files root)
  unfold newestIn
  cases hnewest : newest (.ofName minimum) (installsIn files root) with
  | none =>
    rw [hnewest] at hbest
    refine iff_of_true rfl fun version file ⟨hholds, hreach⟩ => ?_
    obtain ⟨i, hi, hversion⟩ := hholds.exists_install
    have hold := hbest i hi
    rw [← Version.score_le_iff, ← hversion] at hreach
    exact absurd hreach (Nat.not_le_of_lt hold)
  | some top =>
    rw [hnewest] at hbest
    obtain ⟨hmem, hreach, _⟩ := hbest
    obtain ⟨version, file, hholds, rfl⟩ := exists_of_mem_installsIn hmem
    rw [Version.score_le_iff] at hreach
    exact iff_of_false nofun fun hnone => hnone version file ⟨hholds, hreach⟩

theorem exists_of_newestIn (h : newestIn files root minimum = some path) : ∃ version file,
    Eligible files minimum root version file ∧ NoneNewer files minimum [root] version ∧
      path = pathOf root version file := by
  have hbest := best_newest (.ofName minimum) (installsIn files root)
  obtain ⟨top, hnewest, rfl⟩ := Option.map_eq_some_iff.mp h
  rw [hnewest] at hbest
  obtain ⟨hmem, hreach, hmost⟩ := hbest
  obtain ⟨version, file, hholds, rfl⟩ := exists_of_mem_installsIn hmem
  rw [Version.score_le_iff] at hreach
  refine ⟨version, file, ⟨hholds, hreach⟩, fun r hr other file' heligible => ?_, rfl⟩
  obtain rfl := List.mem_singleton.mp hr
  obtain ⟨i, hi, hversion⟩ := heligible.holds.exists_install
  rw [← hversion, ← Version.score_le_iff]
  exact hmost i hi

end ImageLinker.Discovery
