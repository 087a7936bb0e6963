import ImageLinker.Proofs.Checks.Installs

/-!
The newest install of a root whose versions are different and in range: it is determined, in
whatever order the directories are listed, and no sum on the way to it leaves 64 bits.
-/
namespace ImageLinker.Discovery

open Files (Path.join)

variable {files files' : Files.Tree} {root version file minimum path : String}

/-- What has to hold of a root for its newest file to be determined: the scores of its directories
fit in 64 bits, and the versions that have a file are different, short and have no other one. -/
structure Orderly (files : Files.Tree) (root : String) : Prop where
  fits : ∀ version, HasEntry files root version →
    files.isDirectory (Path.join root version) = true →
      (Version.spelled version).score < UInt64.size
  short : ∀ version file, Holds files root version file → (Version.spelled version).IsShort
  distinct : ∀ version file version' file', Holds files root version file →
    Holds files root version' file' → Version.spelled version = Version.spelled version' →
      version = version'
  single : ∀ version file file', Holds files root version file →
    Holds files root version file' → file = file'

/-- The file of the greatest version of a root, where that is at or above a minimum. -/
structure IsGreatest (files : Files.Tree) (minimum : Version) (root version file : String) :
    Prop where
  holds : Holds files root version file
  reaches : minimum ≤ Version.spelled version
  greatest : ∀ other file', Holds files root other file' →
    Version.spelled other ≤ Version.spelled version

theorem IsGreatest.congr {least : Version} (h : IsGreatest files least root version file)
    (hsame : ∀ other file', least ≤ Version.spelled other →
      (Holds files' root other file' ↔ Holds files root other file')) :
    IsGreatest files' least root version file := by
  refine ⟨(hsame version file h.reaches).mpr h.holds, h.reaches, fun other file' hother => ?_⟩
  rcases le_total least (Version.spelled other) with habove | hbelow
  · exact h.greatest other file' ((hsame other file' habove).mp hother)
  · exact hbelow.trans h.reaches

namespace Orderly

theorem carried_ofName (h : Orderly files root) (hholds : Holds files root version file) :
    (Version.ofName version).carried = Version.spelled version := by
  rw [Version.ofName_eq_spelled (h.fits version hholds.directory hholds.isDirectory)]
  exact (h.short version file hholds).carried_eq

/-- The greatest version has one file, whatever is listed ahead of it. -/
theorem unique (h : Orderly files root) {least : Version} {version' file' : String}
    (hgreatest : IsGreatest files least root version file)
    (hgreatest' : IsGreatest files least root version' file') :
    version = version' ∧ file = file' := by
  have hle := hgreatest'.greatest version file hgreatest.holds
  have hge := hgreatest.greatest version' file' hgreatest'.holds
  have hversion := h.distinct version file version' file' hgreatest.holds hgreatest'.holds
    (le_antisymm hle hge)
  subst hversion
  exact ⟨rfl, h.single version file file' hgreatest.holds hgreatest'.holds⟩

theorem eligible_iff (h : Orderly files root)
    (hminimum : (Version.spelled minimum).score < UInt64.size)
    (hholds : Holds files root version file) : Eligible files minimum root version file ↔
      (Version.spelled minimum).carried ≤ Version.spelled version := by
  rw [← h.carried_ofName hholds, ← Version.ofName_eq_spelled hminimum]
  exact ⟨fun heligible => heligible.reaches, fun hreach => ⟨hholds, hreach⟩⟩

theorem exists_isGreatest (h : Orderly files root)
    (hminimum : (Version.spelled minimum).score < UInt64.size)
    (hfound : newestIn files root minimum = some path) : ∃ version file,
      IsGreatest files (Version.spelled minimum).carried root version file ∧
        path = pathOf root version file := by
  obtain ⟨version, file, heligible, hnewer, hpath⟩ := exists_of_newestIn hfound
  have hholds := heligible.holds
  have hreach := (h.eligible_iff hminimum hholds).mp heligible
  refine ⟨version, file, ⟨hholds, hreach, fun other file' hother => ?_⟩, hpath⟩
  -- Versions below the minimum are not looked for, but they are below what has been found as well.
  rcases le_total (Version.spelled minimum).carried (Version.spelled other) with habove | hbelow
  · have hle := hnewer root List.mem_cons_self other file'
      ((h.eligible_iff hminimum hother).mpr habove)
    rwa [h.carried_ofName hother, h.carried_ofName hholds] at hle
  · exact hbelow.trans hreach

theorem newestIn_eq_some_iff (h : Orderly files root)
    (hminimum : (Version.spelled minimum).score < UInt64.size) :
    newestIn files root minimum = some path ↔ ∃ version file,
      IsGreatest files (Version.spelled minimum).carried root version file ∧
        path = pathOf root version file := by
  constructor
  · exact h.exists_isGreatest hminimum
  · rintro ⟨version, file, hgreatest, rfl⟩
    cases hfound : newestIn files root minimum with
    | none =>
      have heligible := (h.eligible_iff hminimum hgreatest.holds).mpr hgreatest.reaches
      exact absurd heligible (newestIn_eq_none_iff.mp hfound version file)
    | some path =>
      obtain ⟨version', file', hgreatest', rfl⟩ := h.exists_isGreatest hminimum hfound
      obtain ⟨rfl, rfl⟩ := h.unique hgreatest hgreatest'
      rfl

theorem newestIn_eq_none_iff (h : Orderly files root)
    (hminimum : (Version.spelled minimum).score < UInt64.size) :
    newestIn files root minimum = none ↔ ∀ version file, Holds files root version file →
      Version.spelled version < (Version.spelled minimum).carried := by
  rw [Discovery.newestIn_eq_none_iff]
  constructor
  · intro hnone version file hholds
    by_contra hreach
    exact hnone version file ((h.eligible_iff hminimum hholds).mpr (not_lt.mp hreach))
  · intro hbelow version file heligible
    have hholds := heligible.holds
    exact absurd ((h.eligible_iff hminimum hholds).mp heligible)
      (not_le.mpr (hbelow version file hholds))

theorem of_get?_eq (h : Orderly files root)
    (hbase : files'.workingDirectory = files.workingDirectory)
    (hget : ∀ place, files'.get? place = files.get? place) : Orderly files' root := by
  have hheld : ∀ {version file}, Holds files' root version file → Holds files root version file :=
    fun hholds => hholds.of_get?_eq hbase.symm fun place => (hget place).symm
  constructor
  · intro version hentry hdir
    have hentry' := hentry.of_get?_eq hbase.symm fun place => (hget place).symm
    have hdir' := isDirectory_of_get?_eq hbase.symm (fun place => (hget place).symm) hdir
    exact h.fits version hentry' hdir'
  · exact fun version file hholds => h.short version file (hheld hholds)
  · exact fun version file version' file' hholds hholds' =>
      h.distinct version file version' file' (hheld hholds) (hheld hholds')
  · exact fun version file file' hholds hholds' =>
      h.single version file file' (hheld hholds) (hheld hholds')

theorem checked_newestIn_eq (h : Orderly files root)
    (hminimum : (Version.spelled minimum).score < UInt64.size) :
    Checked.newestIn files root minimum = .ok (newestIn files root minimum) := by
  apply Checked.newestIn_eq
  · rwa [Version.ofName_eq_spelled hminimum]
  · intro version hentry hdir
    have hfits := h.fits version hentry hdir
    rwa [Version.ofName_eq_spelled hfits]

/-- Only what reaches the minimum matters. -/
theorem newestIn_congr (h : Orderly files root) (h' : Orderly files' root)
    (hminimum : (Version.spelled minimum).score < UInt64.size)
    (hsame : ∀ version file, (Version.spelled minimum).carried ≤ Version.spelled version →
      (Holds files' root version file ↔ Holds files root version file)) :
    newestIn files' root minimum = newestIn files root minimum := by
  ext path
  rw [h'.newestIn_eq_some_iff hminimum, h.newestIn_eq_some_iff hminimum]
  constructor
  · rintro ⟨version, file, hgreatest, hpath⟩
    exact ⟨version, file, hgreatest.congr fun v f hreach => (hsame v f hreach).symm, hpath⟩
  · rintro ⟨version, file, hgreatest, hpath⟩
    exact ⟨version, file, hgreatest.congr hsame, hpath⟩

end Orderly

/-- In a root in order, the file of the greatest version is found among those at or above the
minimum. One pass with scores of 64 bits finds it; neither what lies below the minimum nor the order
of the entries has an influence. -/
theorem newestIn_greatest (h : Orderly files root)
    (hminimum : (Version.spelled minimum).score < UInt64.size) :
    Checked.newestIn files root minimum = .ok (newestIn files root minimum) ∧
    (∀ path, newestIn files root minimum = some path ↔ ∃ version file,
      IsGreatest files (Version.spelled minimum).carried root version file ∧
        path = pathOf root version file) ∧
    (newestIn files root minimum = none ↔ ∀ version file, Holds files root version file →
      Version.spelled version < (Version.spelled minimum).carried) ∧
    (∀ files', Orderly files' root →
      (∀ version file, (Version.spelled minimum).carried ≤ Version.spelled version →
        (Holds files' root version file ↔ Holds files root version file)) →
      newestIn files' root minimum = newestIn files root minimum) ∧
    ∀ files' : Files.Tree, files'.workingDirectory = files.workingDirectory →
      (∀ place, files'.get? place = files.get? place) →
      newestIn files' root minimum = newestIn files root minimum := by
  refine ⟨h.checked_newestIn_eq hminimum, fun path => h.newestIn_eq_some_iff hminimum,
    h.newestIn_eq_none_iff hminimum, fun files' h' hsame => h.newestIn_congr h' hminimum hsame,
    fun files' hbase hget => ?_⟩
  have h' : Orderly files' root := h.of_get?_eq hbase hget
  refine h.newestIn_congr h' hminimum fun version file _ => ⟨fun hholds => ?_, fun hholds => ?_⟩
  · exact hholds.of_get?_eq hbase.symm fun place => (hget place).symm
  · exact hholds.of_get?_eq hbase hget

def directoriesIn (files : Files.Tree) (root : String) : List String :=
  (namesIn files root).filter fun version => files.isDirectory (Path.join root version)

theorem orderly_of_heldIn
    (hfits : ∀ version ∈ directoriesIn files root,
      (Version.spelled version).score < UInt64.size)
    (hshort : ∀ held ∈ heldIn files root, (Version.spelled held.1).minor < 1000 ∧
      (Version.spelled held.1).patch < 1000)
    (hdistinct : ∀ held ∈ heldIn files root, ∀ held' ∈ heldIn files root,
      Version.spelled held.1 = Version.spelled held'.1 → held = held') : Orderly files root where
  fits version hentry hdir :=
    hfits version (List.mem_filter.mpr ⟨mem_namesIn.mpr hentry, hdir⟩)
  short version file hholds :=
    have h := hshort (version, file) (mem_heldIn.mpr hholds)
    ⟨h.1, h.2⟩
  distinct version file version' file' hholds hholds' heq :=
    congrArg Prod.fst (hdistinct (version, file) (mem_heldIn.mpr hholds) (version', file')
      (mem_heldIn.mpr hholds') heq)
  single version file file' hholds hholds' :=
    congrArg Prod.snd (hdistinct (version, file) (mem_heldIn.mpr hholds) (version, file')
      (mem_heldIn.mpr hholds') rfl)

def severalVersions : Files.Tree :=
  (filesAt [["svm", "0.8.30", "solc-0.8.30"], ["svm", "v0.8.28+commit", "solc"],
    ["svm", "0.8.9", "solc"], ["svm", "1.0.0.txt"]]).withDirectories ["svm", "0.9.0"]

theorem newestIn_greatest_several :
    Orderly severalVersions "svm" ∧ (Version.spelled "0.8.28").score < UInt64.size ∧
      newestIn severalVersions "svm" "0.8.28" = some "svm/0.8.30/solc-0.8.30" := by
  have horderly : Orderly severalVersions "svm" :=
    orderly_of_heldIn (by decide +kernel) (by decide +kernel) (by decide +kernel)
  have hminimum : (Version.spelled "0.8.28").score < UInt64.size := by decide +kernel
  have hheld : heldIn severalVersions "svm" =
      [("0.8.9", "solc"), ("v0.8.28+commit", "solc"), ("0.8.30", "solc-0.8.30")] := by
    decide +kernel
  have hholds : Holds severalVersions "svm" "0.8.30" "solc-0.8.30" := by
    rw [← mem_heldIn, hheld]
    decide
  refine ⟨horderly, hminimum, ((newestIn_greatest horderly hminimum).2.1 _).mpr
    ⟨"0.8.30", "solc-0.8.30", ⟨hholds, by decide +kernel, fun other file hother => ?_⟩,
      by decide +kernel⟩⟩
  have hall : ∀ held ∈ heldIn severalVersions "svm",
      Version.spelled held.1 ≤ Version.spelled "0.8.30" := by decide +kernel
  exact hall (other, file) (mem_heldIn.mpr hother)

/-- A minimum with more than three digits in its minor number asks for the next major version: the
files of lower ones are not found, although their versions are above it part by part. -/
theorem not_forall_newestIn_eq_none_iff : ¬ ∀ (files : Files.Tree) (root minimum : String),
    Orderly files root → (Version.spelled minimum).score < UInt64.size →
      (newestIn files root minimum = none ↔ ∀ version file, Holds files root version file →
        Version.spelled version < Version.spelled minimum) := by
  intro hall
  have horderly : Orderly (filesAt [["svm", "1.0.0", "solc"]]) "svm" :=
    orderly_of_heldIn (by decide +kernel) (by decide +kernel) (by decide +kernel)
  have hnone : newestIn (filesAt [["svm", "1.0.0", "solc"]]) "svm" "0.1001.0" = none := by
    decide +kernel
  have hholds : Holds (filesAt [["svm", "1.0.0", "solc"]]) "svm" "1.0.0" "solc" := by
    rw [← mem_heldIn]
    decide +kernel
  have hbelow := (hall _ "svm" "0.1001.0" horderly (by decide +kernel)).mp hnone "1.0.0" "solc"
    hholds
  exact absurd hbelow (by decide +kernel)

end ImageLinker.Discovery
