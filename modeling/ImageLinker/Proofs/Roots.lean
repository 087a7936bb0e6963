import ImageLinker.Proofs.Checks.Installs

/-!
Which install is found in several roots: the newest one of the first root that has one at or above
the minimum. What roots behind that one have is not looked at, so that a newer version there is
passed over.
-/
namespace ImageLinker.Discovery

variable {files : Files.Tree} {root minimum path : String}

theorem locate_eq_none_iff {roots : List String} : locate files roots minimum = none ↔
    ∀ root ∈ roots, ∀ version file, ¬ Eligible files minimum root version file := by
  rw [locate, List.findSome?_eq_none_iff]
  simp only [newestIn_eq_none_iff]

theorem locate_append {before after : List String}
    (hbefore : ∀ r ∈ before, ∀ version file, ¬ Eligible files minimum r version file)
    (hfound : newestIn files root minimum = some path) :
    locate files (before ++ root :: after) minimum = some path := by
  have hnone : locate files before minimum = none := locate_eq_none_iff.mpr hbefore
  rw [locate] at hnone ⊢
  rw [List.findSome?_append, hnone, Option.none_or, List.findSome?_cons, hfound]

/-- The newest file of the first root that has one is found, also with scores of 64 bits. It is the
newest of all the roots just when no root behind that one has a newer one. -/
theorem locate_newest_in_first {roots : List String} (h : Checked.Scored files roots minimum) :
    Checked.locate files roots minimum = .ok (locate files roots minimum) ∧
    (locate files roots minimum = none ↔
      ∀ root ∈ roots, ∀ version file, ¬ Eligible files minimum root version file) ∧
    ∀ before root after, roots = before ++ root :: after →
      (∀ r ∈ before, ∀ version file, ¬ Eligible files minimum r version file) →
      (∃ version file, Eligible files minimum root version file) →
      ∃ version file, Eligible files minimum root version file ∧
        locate files roots minimum = some (pathOf root version file) ∧
        NoneNewer files minimum [root] version ∧
        (NoneNewer files minimum roots version ↔ NoneNewer files minimum after version) := by
  refine ⟨Checked.locate_eq h, locate_eq_none_iff, ?_⟩
  rintro before root after rfl hbefore ⟨eligible, file, heligible⟩
  cases hfound : newestIn files root minimum with
  | none => exact absurd heligible (newestIn_eq_none_iff.mp hfound eligible file)
  | some path =>
    obtain ⟨version, file, hfile, hnewest, rfl⟩ := exists_of_newestIn hfound
    refine ⟨version, file, hfile, locate_append hbefore hfound, hnewest, ?_⟩
    constructor
    · intro hall r hr
      exact hall r (List.mem_append_right _ (List.mem_cons_of_mem _ hr))
    · intro hafter r hr other file' hother
      rcases List.mem_append.mp hr with hr | hr
      · exact absurd hother (hbefore r hr other file')
      · rcases List.mem_cons.mp hr with rfl | hr
        · exact hnewest r List.mem_cons_self other file' hother
        · exact hafter r hr other file' hother

/-- An older version in the home directory and a newer one below the directory for data. -/
def twoRoots : Files.Tree :=
  filesAt [["home", ".svm", "0.8.28", "solc"], ["data", "svm", "0.8.30", "solc"]]

theorem heldIn_twoRoots : heldIn twoRoots "home/.svm" = [("0.8.28", "solc")] ∧
    heldIn twoRoots "data/svm" = [("0.8.30", "solc")] ∧ heldIn twoRoots "svm" = [] := by
  decide +kernel

theorem eligible_twoRoots : Eligible twoRoots "0.8.28" "home/.svm" "0.8.28" "solc" ∧
    Eligible twoRoots "0.8.28" "data/svm" "0.8.30" "solc" := by
  obtain ⟨hhome, hdata, _⟩ := heldIn_twoRoots
  refine ⟨⟨?_, by decide +kernel⟩, ⟨?_, by decide +kernel⟩⟩
  · rw [← mem_heldIn, hhome]
    decide
  · rw [← mem_heldIn, hdata]
    decide

theorem scored_twoRoots :
    Checked.Scored twoRoots ["svm", "home/.svm", "data/svm"] "0.8.28" where
  minimum := by decide +kernel
  directories root hroot name hentry _ := by
    have hall : ∀ root ∈ ["svm", "home/.svm", "data/svm"], ∀ name ∈ namesIn twoRoots root,
        (Version.ofName name).score < UInt64.size := by decide +kernel
    exact hall root hroot name (mem_namesIn.mpr hentry)

/-- A root that is not there, one with an older version, and one with a newer version. -/
theorem locate_newest_in_first_older :
    Checked.Scored twoRoots ["svm", "home/.svm", "data/svm"] "0.8.28" ∧
    (∀ r ∈ ["svm"], ∀ version file, ¬ Eligible twoRoots "0.8.28" r version file) ∧
      (∃ version file, Eligible twoRoots "0.8.28" "home/.svm" version file) ∧
      ∃ version file, Eligible twoRoots "0.8.28" "home/.svm" version file ∧
        locate twoRoots ["svm", "home/.svm", "data/svm"] "0.8.28" =
          some (pathOf "home/.svm" version file) ∧
        ¬ NoneNewer twoRoots "0.8.28" ["svm", "home/.svm", "data/svm"] version := by
  obtain ⟨hhome, hdata⟩ := eligible_twoRoots
  have hbefore : ∀ r ∈ ["svm"], ∀ version file, ¬ Eligible twoRoots "0.8.28" r version file := by
    intro r hr version file heligible
    obtain rfl := List.mem_singleton.mp hr
    have hmem := mem_heldIn.mpr heligible.holds
    rw [heldIn_twoRoots.2.2] at hmem
    cases hmem
  refine ⟨scored_twoRoots, hbefore, ⟨_, _, hhome⟩, ?_⟩
  obtain ⟨version, file, heligible, hlocate, _, hnewer⟩ :=
    (locate_newest_in_first scored_twoRoots).2.2 ["svm"] "home/.svm" ["data/svm"] rfl hbefore
      ⟨_, _, hhome⟩
  refine ⟨version, file, heligible, hlocate, fun hall => ?_⟩
  have hmem := mem_heldIn.mpr heligible.holds
  rw [heldIn_twoRoots.1, List.mem_singleton] at hmem
  cases hmem
  have hle := hnewer.mp hall "data/svm" List.mem_cons_self _ _ hdata
  exact absurd hle (by decide +kernel)

/-- A newer version in a later root is passed over. -/
theorem not_forall_locate_newest : ¬ ∀ (files : Files.Tree) (roots : List String)
    (minimum path : String), locate files roots minimum = some path →
      ∃ root ∈ roots, ∃ version file, Holds files root version file ∧
        path = pathOf root version file ∧
        ∀ r ∈ roots, ∀ other file', Holds files r other file' →
          Version.spelled minimum ≤ Version.spelled other →
            Version.spelled other ≤ Version.spelled version := by
  intro hall
  have hfound : locate twoRoots ["home/.svm", "data/svm"] "0.8.28" =
      some "home/.svm/0.8.28/solc" := by decide +kernel
  obtain ⟨root, hroot, version, file, hholds, hpath, hnewest⟩ := hall _ _ _ _ hfound
  have hmem := mem_heldIn.mpr hholds
  rcases List.mem_cons.mp hroot with rfl | hroot
  · rw [heldIn_twoRoots.1, List.mem_singleton] at hmem
    cases hmem
    have hle := hnewest "data/svm" (by decide) "0.8.30" "solc" eligible_twoRoots.2.holds
      (by decide +kernel)
    exact absurd hle (by decide +kernel)
  · obtain rfl := List.mem_singleton.mp hroot
    rw [heldIn_twoRoots.2.1, List.mem_singleton] at hmem
    cases hmem
    exact absurd hpath (by decide +kernel)

end ImageLinker.Discovery
