import Mathlib.Algebra.Group.Nat.Defs
import ImageLinker.Proofs.Assembly

/-! What assembling makes of modules numbered in order: too many of them, the first one that does
not fit, or an image in which every code stands unchanged. -/
namespace ImageLinker

section Sequencing

variable {α β ε : Type}

theorem bind_eq_error_iff {x : Except ε α} {f : α → Except ε β} {e : ε} :
    (x >>= f) = .error e ↔ x = .error e ∨ ∃ a, x = .ok a ∧ f a = .error e := by
  cases x <;> simp [bind, Except.bind]

/-- The first element that fails decides the error. -/
theorem mapM_eq_error_iff {f : α → Except ε β} {l : List α} {e : ε} :
    l.mapM f = .error e ↔ ∃ k, ∃ hk : k < l.length, f l[k] = .error e ∧
      ∀ j (hj : j < k), ∃ b, f l[j] = .ok b := by
  induction l with
  | nil =>
    simp only [List.mapM_nil, List.length_nil]
    constructor
    · intro h
      cases h
    · rintro ⟨k, hk, _⟩
      omega
  | cons a rest ih =>
    rw [List.mapM_cons]
    constructor
    · intro h
      rcases bind_eq_error_iff.mp h with ha | ⟨b, ha, h⟩
      · exact ⟨0, Nat.succ_pos _, ha, fun j hj => absurd hj (Nat.not_lt_zero j)⟩
      · obtain hrest | ⟨_, _, h⟩ := bind_eq_error_iff.mp h
        · obtain ⟨k, hk, herror, hbefore⟩ := ih.mp hrest
          refine ⟨k + 1, Nat.succ_lt_succ hk, herror, fun j hj => ?_⟩
          cases j with
          | zero => exact ⟨b, ha⟩
          | succ j => exact hbefore j (Nat.lt_of_succ_lt_succ hj)
        · cases h
    · rintro ⟨k, hk, herror, hbefore⟩
      apply bind_eq_error_iff.mpr
      cases k with
      | zero => exact .inl herror
      | succ k =>
        obtain ⟨b, hb⟩ := hbefore 0 (Nat.succ_pos k)
        have hrest : rest.mapM f = .error e :=
          ih.mpr ⟨k, Nat.lt_of_succ_lt_succ hk, herror, fun j hj =>
            hbefore (j + 1) (Nat.succ_lt_succ hj)⟩
        exact .inr ⟨b, hb, bind_eq_error_iff.mpr (.inl hrest)⟩

end Sequencing

namespace Layout

theorem capacity_le (layout : Layout) : layout.capacity ≤ 8192 :=
  Nat.pow_le_pow_right (by omega) layout.shift_le

theorem offsetOf_lt (layout : Layout) {index : Nat} (h : index < maxSections) :
    layout.offsetOf index < UInt64.size := by
  have hle := Nat.mul_le_mul (Nat.le_of_lt h) layout.capacity_le
  have hnum : maxSections * 8192 < UInt64.size := by decide
  exact Nat.lt_of_le_of_lt hle hnum

end Layout

namespace CompiledModule

/-- The offsets that a module lists, moved to its section, are numbers of 64 bits. -/
def OffsetsFit (layout : Layout) (m : CompiledModule) (index : Nat) : Prop :=
  ∀ offset ∈ m.substitutions, layout.offsetOf index + offset < UInt64.size

theorem OffsetsFit.of_lt {layout : Layout} {m : CompiledModule} {index : Nat}
    (hindex : index < Layout.maxSections) (h : ∀ offset ∈ m.substitutions, offset < 2 ^ 63) :
    m.OffsetsFit layout index := by
  intro offset hoffset
  have hlt := h offset hoffset
  have hle : layout.offsetOf index ≤ Layout.maxSections * 8192 :=
    Nat.mul_le_mul (Nat.le_of_lt hindex) layout.capacity_le
  have hsum : Layout.maxSections * 8192 + 2 ^ 63 < UInt64.size := by decide
  omega

end CompiledModule

def Numbered (compiled : List CompiledModule) : Prop :=
  compiled.map (·.module.sectionIndex) = List.range' 1 compiled.length

theorem Numbered.sectionIndex {compiled : List CompiledModule} (h : Numbered compiled) {k : Nat}
    (hk : k < compiled.length) : compiled[k].module.sectionIndex = k + 1 := by
  have hget := congrArg (·[k]?) h
  simp only [List.getElem?_map, List.getElem?_eq_getElem hk, Option.map_some] at hget
  rw [List.getElem?_range' hk, Option.some.injEq] at hget
  omega

namespace Image

open CompiledModule

variable {layout : Layout} {variant : Variant} {compiled : List CompiledModule} {image : Image}

theorem mapM_checkNumber {m : CompiledModule} {index : Nat} (h : m.OffsetsFit layout index) :
    m.substitutions.mapM (fun offset =>
      (Misuse.checkNumber (layout.offsetOf index + offset)).mapError Failure.misuse) =
        .ok (m.movedSubstitutions layout index) := by
  rw [mapM_eq_ok_iff fun offset n => (mapError_eq_ok_iff (r := n)).trans checkNumber_eq_ok_iff]
  exact ⟨h, rfl⟩

theorem packModule_of_overflow {m : CompiledModule} {index : Nat}
    (hindex : m.module.sectionIndex = index) (hoffsets : m.OffsetsFit layout index)
    (hcode : layout.capacity < m.code.length) : packModule layout m index =
      .error (.error (.sectionOverflow m.module.path index m.code.length layout.capacity)) := by
  unfold packModule
  dsimp only
  rw [hindex, if_neg (not_not_intro rfl), mapM_checkNumber hoffsets]
  unfold Section.pack
  dsimp only
  rw [if_pos hcode]
  rfl

theorem failure_of_packModule {m : CompiledModule} {index : Nat} {e : Failure}
    (h : packModule layout m index = .error e) : (∃ misuse, e = .misuse misuse) ∨
      e = .error (.sectionOverflow m.module.path m.module.sectionIndex m.code.length
        layout.capacity) := by
  unfold packModule at h
  dsimp only at h
  split at h
  · cases h
    exact .inl ⟨_, rfl⟩
  · rcases bind_eq_error_iff.mp h with h | ⟨_, _, h⟩
    · obtain ⟨k, hk, hcheck, _⟩ := mapM_eq_error_iff.mp h
      cases hnumber : Misuse.checkNumber (layout.offsetOf m.module.sectionIndex +
          m.substitutions[k]) with
      | error misuse =>
        rw [hnumber] at hcheck
        cases hcheck
        exact .inl ⟨_, rfl⟩
      | ok n =>
        rw [hnumber] at hcheck
        cases hcheck
    · rcases bind_eq_error_iff.mp h with h | ⟨_, _, h⟩
      · unfold Section.pack at h
        dsimp only at h
        split at h
        · cases h
          exact .inr rfl
        · cases h
      · cases h

theorem assemble_of_lt (hlen : compiled.length < Layout.maxSections) :
    assemble layout variant compiled = do
      let packed ← (compiled.zipIdx 1).mapM fun p => packModule layout p.1 p.2
      return ⟨variant, layout, .filled layout 0 "<dispatcher>" (dispatcher layout) ::
        packed.map (·.1), packed.flatMap (·.2)⟩ := by
  have hhead := Section.pack_eq_ok_iff.mpr
    ⟨length_dispatcher_le layout, (rfl : _ = Section.filled layout 0 "<dispatcher>" _)⟩
  unfold assemble
  rw [if_neg (Nat.not_le.mpr hlen), hhead]
  rfl

theorem assemble_of_le (hlen : Layout.maxSections ≤ compiled.length) :
    assemble layout variant compiled =
      .error (.error (.config (.selectorTooNarrow compiled.length))) := by
  unfold assemble
  rw [if_pos hlen]
  rfl

/-- Fewer modules than selectors are refused only for one of them. -/
theorem failure_of_assemble {e : Failure} (hlen : compiled.length < Layout.maxSections)
    (h : assemble layout variant compiled = .error e) : (∃ misuse, e = .misuse misuse) ∨
      ∃ path index size, e = .error (.sectionOverflow path index size layout.capacity) := by
  rw [assemble_of_lt hlen] at h
  rcases bind_eq_error_iff.mp h with h | ⟨_, _, h⟩
  · obtain ⟨_, _, hpack, _⟩ := mapM_eq_error_iff.mp h
    rcases failure_of_packModule hpack with hmisuse | hoverflow
    · exact .inl hmisuse
    · exact .inr ⟨_, _, _, hoverflow⟩
  · cases h

theorem assemble_eq_config_iff {fault : Misconfiguration} :
    assemble layout variant compiled = .error (.error (.config fault)) ↔
      Layout.maxSections ≤ compiled.length ∧ fault = .selectorTooNarrow compiled.length := by
  by_cases hlen : Layout.maxSections ≤ compiled.length
  · rw [assemble_of_le hlen]
    simp [hlen, eq_comm]
  · constructor
    · intro h
      rcases failure_of_assemble (Nat.lt_of_not_le hlen) h with ⟨_, h⟩ | ⟨_, _, _, h⟩ <;> cases h
    · intro h
      exact absurd h.1 hlen

theorem linkable_of_numbered (hnum : Numbered compiled) {k : Nat} (hk : k < compiled.length)
    (hcode : compiled[k].code.length ≤ layout.capacity)
    (hoffsets : compiled[k].OffsetsFit layout (k + 1)) :
    compiled[k].Linkable layout (k + 1) where
  inOrder := hnum.sectionIndex hk
  fits := hcode
  offsets := hoffsets

/-- The first module that does not fit stops the assembling. -/
theorem assemble_of_overflow (hnum : Numbered compiled)
    (hlen : compiled.length < Layout.maxSections) {k : Nat} (hk : k < compiled.length)
    (hbefore : ∀ j (hj : j < k), compiled[j].code.length ≤ layout.capacity)
    (hcode : layout.capacity < compiled[k].code.length)
    (hoffsets : ∀ j (hj : j ≤ k), compiled[j].OffsetsFit layout (j + 1)) :
    assemble layout variant compiled = .error (.error
      (.sectionOverflow compiled[k].module.path (k + 1) compiled[k].code.length
        layout.capacity)) := by
  rw [assemble_of_lt hlen]
  apply bind_eq_error_iff.mpr
  left
  apply mapM_eq_error_iff.mpr
  refine ⟨k, by rwa [List.length_zipIdx], ?_, ?_⟩
  · rw [List.getElem_zipIdx, Nat.add_comm 1 k]
    exact packModule_of_overflow (hnum.sectionIndex hk) (hoffsets k (Nat.le_refl k)) hcode
  · intro j hj
    rw [List.getElem_zipIdx, Nat.add_comm 1 j]
    refine ⟨_, packModule_eq_ok_iff.mpr ⟨?_, rfl⟩⟩
    exact linkable_of_numbered hnum (Nat.lt_trans hj hk) (hbefore j hj)
      (hoffsets j (Nat.le_of_lt hj))

def codes (layout : Layout) (compiled : List CompiledModule) : List (List UInt8) :=
  dispatcher layout :: compiled.map (·.code)

/-- Every code stands at the start of its own section with zeros behind it, and what is listed of a
module's offsets moves with its code. -/
structure Packs (image : Image) (layout : Layout) (compiled : List CompiledModule) : Prop where
  length : image.bytes.length = layout.capacity * (compiled.length + 1)
  indices : image.sections.map (·.index) = List.range (compiled.length + 1)
  paths : image.modules.map (·.path) = compiled.map (·.module.path)
  used : image.sections.map (·.used) = (codes layout compiled).map List.length
  code {i : Nat} {code : List UInt8} (h : (codes layout compiled)[i]? = some code) :
    (image.bytes.drop (i * layout.capacity)).take layout.capacity =
      code ++ List.replicate (layout.capacity - code.length) 0
  substitutions : image.substitutions = (compiled.zipIdx 1).flatMap fun (m, i) =>
    m.substitutions.map (i * layout.capacity + ·)
  substituted {k : Nat} (hk : k < compiled.length) {offset : Nat}
    (h : offset ∈ compiled[k].substitutions) (hlt : offset < compiled[k].code.length) :
    image.bytes[(k + 1) * layout.capacity + offset]? = compiled[k].code[offset]?

section

variable (h : assemble layout variant compiled = .ok image)

include h

theorem take_section {i : Nat} {s : Section} (hs : image.sections[i]? = some s) :
    (image.bytes.drop (i * layout.capacity)).take layout.capacity = s.bytes := by
  have hlen := length_bytes_of_mem_sections h s (List.mem_of_getElem? hs)
  rw [drop_bytes h hs, List.take_left' hlen]

theorem take_code {i : Nat} {code : List UInt8} (hi : (codes layout compiled)[i]? = some code) :
    (image.bytes.drop (i * layout.capacity)).take layout.capacity =
      code ++ List.replicate (layout.capacity - code.length) 0 := by
  cases i with
  | zero =>
    obtain rfl : dispatcher layout = code := Option.some.inj hi
    exact take_section h (getElem?_sections_zero h)
  | succ k =>
    rw [codes, List.getElem?_cons_succ, List.getElem?_map] at hi
    obtain ⟨m, hm, rfl⟩ := Option.map_eq_some_iff.mp hi
    obtain ⟨hk, rfl⟩ := List.getElem?_eq_some_iff.mp hm
    exact take_section h (getElem?_sections_succ h hk)

theorem numbered_of_assemble : Numbered compiled := by
  apply List.ext_getElem
  · rw [List.length_map, List.length_range']
  · intro k hk _
    rw [List.length_map] at hk
    rw [List.getElem_map, List.getElem_range', (linkable_of_assemble h hk).inOrder]
    omega

theorem packs_of_assemble : image.Packs layout compiled := by
  have hnum := numbered_of_assemble h
  obtain ⟨_, _, rfl⟩ := assemble_eq_ok_iff.mp h
  refine ⟨length_of_assemble h, ?_, ?_, ?_, take_code h, rfl, ?_⟩
  · have hindices : (compiled.map (slot layout)).map (·.index) = List.range' 1 compiled.length := by
      rw [List.map_map, ← hnum]
      rfl
    rw [linked, List.map_cons, hindices, List.range_eq_range', List.range'_succ]
    rfl
  · simp [modules, linked, slot, Section.filled]
  · simp [linked, codes, slot, Section.filled]
  · intro k hk offset _ hlt
    exact getElem?_bytes_section h hk hlt

end

/-- Modules numbered in order are too many for the selector, or the first one that does not fit is
named, or all of them are packed. -/
theorem assemble_packs (hnum : Numbered compiled) :
    (∀ fault, assemble layout variant compiled = .error (.error (.config fault)) ↔
      256 ≤ compiled.length ∧ fault = .selectorTooNarrow compiled.length) ∧
    (compiled.length < 256 →
      (∀ k (hk : k < compiled.length),
        (∀ j (hj : j < k), compiled[j].code.length ≤ layout.capacity) →
        layout.capacity < compiled[k].code.length →
        (∀ j (hj : j ≤ k), compiled[j].OffsetsFit layout (j + 1)) →
        assemble layout variant compiled = .error (.error
          (.sectionOverflow compiled[k].module.path (k + 1) compiled[k].code.length
            layout.capacity))) ∧
      ((∀ k (hk : k < compiled.length), compiled[k].code.length ≤ layout.capacity) →
        (∀ k (hk : k < compiled.length), compiled[k].OffsetsFit layout (k + 1)) →
        ∃ image, assemble layout variant compiled = .ok image ∧ image.Packs layout compiled)) := by
  refine ⟨fun fault => assemble_eq_config_iff, fun hlen => ⟨?_, ?_⟩⟩
  · intro k hk hbefore hcode hoffsets
    exact assemble_of_overflow hnum hlen hk hbefore hcode hoffsets
  · intro hcodes hoffsets
    have hlink : ∀ p ∈ compiled.zipIdx 1, p.1.Linkable layout p.2 := by
      intro p hp
      obtain ⟨k, hk, rfl⟩ := List.mem_iff_getElem.mp hp
      rw [List.length_zipIdx] at hk
      rw [List.getElem_zipIdx, Nat.add_comm 1 k]
      exact linkable_of_numbered hnum hk (hcodes k hk) (hoffsets k hk)
    have h : assemble layout variant compiled = .ok (linked layout variant compiled) :=
      assemble_eq_ok_iff.mpr ⟨hlen, hlink, rfl⟩
    exact ⟨_, h, packs_of_assemble h⟩

def replaced : List CompiledModule :=
  [⟨⟨"a.yul", 1⟩, List.replicate 32 0x5b, []⟩, ⟨⟨"b.yul", 2⟩, [0x5b, 0x5f, 0x5f], [2]⟩]

theorem assemble_packs_replaced :
    (∃ image, assemble ⟨5, by decide, by decide⟩ .push0 replaced = .ok image ∧
      image.Packs ⟨5, by decide, by decide⟩ replaced) ∧
    assemble ⟨5, by decide, by decide⟩ .push0 [⟨⟨"a.yul", 1⟩, List.replicate 33 0x5b, []⟩] =
      .error (.error (.sectionOverflow "a.yul" 1 33 32)) := by
  constructor
  · obtain ⟨_, hlen⟩ := @assemble_packs ⟨5, by decide, by decide⟩ .push0 replaced rfl
    refine (hlen (by decide)).2 (by decide) fun k hk offset hoffset => ?_
    have hall : ∀ m ∈ replaced, ∀ offset ∈ m.substitutions, offset = 2 := by decide
    rw [hall _ (List.getElem_mem hk) offset hoffset]
    have hk : k < 2 := hk
    have hbase : (k + 1) * 32 + 2 < UInt64.size :=
      Nat.lt_of_le_of_lt (by omega : (k + 1) * 32 + 2 ≤ 66) (by decide)
    exact hbase
  · obtain ⟨_, hlen⟩ := @assemble_packs ⟨5, by decide, by decide⟩ .push0
      [⟨⟨"a.yul", 1⟩, List.replicate 33 0x5b, []⟩] rfl
    refine (hlen (by decide)).1 0 (by decide) (fun j hj => absurd hj (Nat.not_lt_zero j))
      (by decide) fun j hj offset hoffset => ?_
    obtain rfl : j = 0 := Nat.le_zero.mp hj
    cases hoffset

/-- A listed offset that its section moves past 64 bits keeps modules that fit from being
assembled. -/
theorem not_forall_assemble_packs :
    ¬ ∀ (layout : Layout) (variant : Variant) (compiled : List CompiledModule),
      Numbered compiled → compiled.length < 256 →
      (∀ m ∈ compiled, m.code.length ≤ layout.capacity) →
      ∃ image, assemble layout variant compiled = .ok image ∧ image.Packs layout compiled := by
  intro hall
  obtain ⟨image, h, _⟩ := hall ⟨5, by decide, by decide⟩ .push0
    [⟨⟨"a.yul", 1⟩, [0x5b], [18446744073709551584]⟩] rfl (by decide) (by decide)
  have hoffsets := (linkable_of_assemble h (k := 0) (by decide)).offsets
  have hlt := hoffsets 18446744073709551584 (List.mem_singleton_self _)
  exact absurd hlt (by decide)

end Image

end ImageLinker
