import Mathlib.Data.List.Induction
import Mathlib.Data.Nat.Digits.Defs
import Mathlib.Data.Prod.Lex
import ImageLinker.Discovery

/-!
Versions in names. A name spells the numbers that its first three runs of digits are; they are what
is read as long as the score of the version fits in 64 bits. Scores order versions part by part,
where every thousand of a part counts as one of the part ahead of it.
-/
namespace ImageLinker.Discovery

def runsOf (text : List Char) : List (List Char) :=
  (text.splitOnP (!·.isDigit)).filter (!·.isEmpty)

def numeral (digits : List Char) : Nat := Nat.ofDigits 10 (digits.reverse.map (·.toNat - 48))

/-- The version that a name spells: its first three numbers, whatever stands around them, and zero
for those that are missing. -/
def Version.spelled (name : String) : Version :=
  let numbers := (runsOf name.toList).map numeral
  ⟨numbers[0]?.getD 0, numbers[1]?.getD 0, numbers[2]?.getD 0⟩

theorem runsOf_cons_of_not_isDigit {c : Char} (hc : c.isDigit = false) (rest : List Char) :
    runsOf (c :: rest) = runsOf rest := by
  unfold runsOf
  rw [List.splitOnP_cons_eq_if_modifyHead, if_pos (by simp [hc]), List.filter_cons_of_neg (by simp)]

/-- A digit goes on with the run that begins right behind it. -/
theorem runsOf_cons_of_isDigit {c d : Char} (hc : c.isDigit = true) (hd : d.isDigit = true)
    (rest : List Char) : ∃ run runs, runsOf (d :: rest) = run :: runs ∧
      runsOf (c :: d :: rest) = (c :: run) :: runs := by
  obtain ⟨first, others, hsplit⟩ :=
    List.exists_cons_of_ne_nil (List.splitOnP_ne_nil (!·.isDigit) rest)
  refine ⟨d :: first, others.filter (!·.isEmpty), ?_, ?_⟩
  · unfold runsOf
    rw [List.splitOnP_cons_eq_if_modifyHead, if_neg (by simp [hd]), hsplit, List.modifyHead_cons,
      List.filter_cons_of_pos (by simp)]
  · unfold runsOf
    rw [List.splitOnP_cons_eq_if_modifyHead, List.splitOnP_cons_eq_if_modifyHead,
      if_neg (by simp [hc]), if_neg (by simp [hd]), hsplit, List.modifyHead_cons,
      List.modifyHead_cons, List.filter_cons_of_pos (by simp)]

/-- A digit with no digit behind it is a run. -/
theorem runsOf_cons_of_isDigit_alone {c : Char} (hc : c.isDigit = true) {rest : List Char}
    (hrest : ∀ d ∈ rest.head?, d.isDigit = false) : runsOf (c :: rest) = [c] :: runsOf rest := by
  cases rest with
  | nil => simp [runsOf, List.splitOnP_cons_eq_if_modifyHead, List.splitOnP_nil, hc]
  | cons d rest =>
    have hd : d.isDigit = false := hrest d rfl
    rw [runsOf_cons_of_not_isDigit hd]
    unfold runsOf
    rw [List.splitOnP_cons_eq_if_modifyHead, List.splitOnP_cons_eq_if_modifyHead,
      if_neg (by simp [hc]), if_pos (by simp [hd]), List.modifyHead_cons,
      List.filter_cons_of_pos (by simp)]

theorem digitRuns_eq_runsOf (text : List Char) : digitRuns text = runsOf text := by
  induction text with
  | nil => rfl
  | cons c rest ih =>
    unfold digitRuns
    rw [ih]
    cases hc : c.isDigit with
    | false => exact (runsOf_cons_of_not_isDigit hc rest).symm
    | true =>
      cases rest with
      | nil => exact (runsOf_cons_of_isDigit_alone hc (by simp)).symm
      | cons d rest =>
        cases hd : d.isDigit with
        | true =>
          obtain ⟨run, runs, hrun, hboth⟩ := runsOf_cons_of_isDigit hc hd rest
          rw [hboth, hrun]
          simp [hd]
        | false =>
          have halone : ∀ e ∈ (d :: rest).head?, e.isDigit = false := by simpa using hd
          rw [runsOf_cons_of_isDigit_alone hc halone]
          cases runsOf (d :: rest) with
          | nil => rfl
          | cons run runs => simp [hd]

theorem numeral_append (digits : List Char) (c : Char) :
    numeral (digits ++ [c]) = 10 * numeral digits + (c.toNat - 48) := by
  unfold numeral
  rw [List.reverse_append, List.reverse_singleton, List.singleton_append, List.map_cons,
    Nat.ofDigits_cons, Nat.add_comm]

theorem numberOfRun_eq (digits : List Char) :
    numberOfRun digits = if numeral digits < UInt64.size then numeral digits else 0 := by
  have hfold : digits.foldl (fun n c => 10 * n + (c.toNat - 48)) 0 = numeral digits := by
    induction digits using List.reverseRecOn with
    | nil => rfl
    | append_singleton digits c ih =>
      rw [List.foldl_append, ih, numeral_append, List.foldl_cons, List.foldl_nil]
  rw [numberOfRun, hfold]

namespace Version

/-- Versions are compared by their major numbers first, then by their minor ones, then by their
patches. -/
instance : LinearOrder Version :=
  LinearOrder.lift' (fun v => toLex (v.major, toLex (v.minor, v.patch))) (by
    rintro ⟨major, minor, patch⟩ ⟨major', minor', patch'⟩ h
    have h' : (major, minor, patch) = (major', minor', patch') := h
    simpa using h')

theorem le_iff {v w : Version} : v ≤ w ↔ v.major < w.major ∨ v.major = w.major ∧
    (v.minor < w.minor ∨ v.minor = w.minor ∧ v.patch ≤ w.patch) := by
  change toLex (v.major, toLex (v.minor, v.patch)) ≤ toLex (w.major, toLex (w.minor, w.patch)) ↔ _
  rw [Prod.Lex.toLex_le_toLex, Prod.Lex.toLex_le_toLex]

/-- The parts behind the first have at most three digits. -/
structure IsShort (v : Version) : Prop where
  minor_lt : v.minor < 1000
  patch_lt : v.patch < 1000

/-- The version with every thousand of its patch in its minor number, and every thousand of that in
its major number. -/
def carried (v : Version) : Version :=
  let minor := v.minor + v.patch / 1000
  ⟨v.major + minor / 1000, minor % 1000, v.patch % 1000⟩

theorem isShort_carried (v : Version) : v.carried.IsShort :=
  ⟨Nat.mod_lt _ (by decide), Nat.mod_lt _ (by decide)⟩

theorem IsShort.carried_eq {v : Version} (h : v.IsShort) : v.carried = v := by
  obtain ⟨major, minor, patch⟩ := v
  obtain ⟨hminor, hpatch⟩ := h
  dsimp only at hminor hpatch
  simp [carried, Nat.div_eq_of_lt hpatch, Nat.div_eq_of_lt hminor, Nat.mod_eq_of_lt hminor,
    Nat.mod_eq_of_lt hpatch]

theorem score_carried (v : Version) : v.carried.score = v.score := by
  simp only [carried, score]
  omega

theorem IsShort.score_le_iff {v w : Version} (hv : v.IsShort) (hw : w.IsShort) :
    v.score ≤ w.score ↔ v ≤ w := by
  obtain ⟨hvm, hvp⟩ := hv
  obtain ⟨hwm, hwp⟩ := hw
  rw [le_iff]
  unfold score
  omega

theorem score_le_iff (v w : Version) : v.score ≤ w.score ↔ v.carried ≤ w.carried := by
  rw [← score_carried v, ← score_carried w]
  exact (isShort_carried v).score_le_iff (isShort_carried w)

/-- What a name spells is what is read, unless the score is too large. -/
theorem ofName_eq_spelled {name : String} (h : (spelled name).score < UInt64.size) :
    ofName name = spelled name := by
  have hread : ∀ k : Nat, ((runsOf name.toList).map numeral)[k]?.getD 0 < UInt64.size →
      ((digitRuns name.toList).map numberOfRun)[k]?.getD 0 =
        ((runsOf name.toList).map numeral)[k]?.getD 0 := by
    intro k hk
    rw [digitRuns_eq_runsOf]
    rw [List.getElem?_map] at hk ⊢
    rw [List.getElem?_map]
    cases hrun : (runsOf name.toList)[k]? with
    | none => rfl
    | some run =>
      rw [hrun] at hk
      simp only [Option.map_some, Option.getD_some] at hk ⊢
      rw [numberOfRun_eq, if_pos hk]
  -- No part is larger than the score.
  simp only [score, spelled] at h
  have hmajor := hread 0 (by omega)
  have hminor := hread 1 (by omega)
  have hpatch := hread 2 (by omega)
  simp only [ofName, spelled]
  rw [hmajor, hminor, hpatch]

end Version

end ImageLinker.Discovery
