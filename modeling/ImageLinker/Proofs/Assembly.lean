import ImageLinker.Image

/-! When modules are assembled into an image, and which byte of it comes from where. -/
namespace ImageLinker

section Sequencing

variable {α β ε δ : Type}

theorem bind_eq_ok_iff {x : Except ε α} {f : α → Except ε β} {r : β} :
    (x >>= f) = .ok r ↔ ∃ a, x = .ok a ∧ f a = .ok r := by
  cases x <;> simp [bind, Except.bind]

theorem mapError_eq_ok_iff {x : Except ε α} {f : ε → δ} {r : α} :
    x.mapError f = .ok r ↔ x = .ok r := by
  cases x with
  | error e =>
    constructor
    · intro h
      cases h
    · intro h
      cases h
  | ok a =>
    constructor
    · intro h
      cases h
      rfl
    · intro h
      cases h
      rfl

theorem mapM_eq_ok_iff {f : α → Except ε β} {P : α → Prop} {g : α → β}
    (hf : ∀ a b, f a = .ok b ↔ P a ∧ b = g a) {l : List α} {r : List β} :
    l.mapM f = .ok r ↔ (∀ a ∈ l, P a) ∧ r = l.map g := by
  induction l generalizing r with
  | nil => simp [pure, Except.pure, eq_comm]
  | cons a rest ih =>
    rw [List.mapM_cons, List.forall_mem_cons, List.map_cons]
    simp only [bind_eq_ok_iff, hf, ih]
    constructor
    · rintro ⟨_, ⟨ha, rfl⟩, _, ⟨hrest, rfl⟩, h⟩
      exact ⟨⟨ha, hrest⟩, (Except.ok.inj h).symm⟩
    · rintro ⟨⟨ha, hrest⟩, rfl⟩
      exact ⟨_, ⟨ha, rfl⟩, _, ⟨hrest, rfl⟩, rfl⟩

end Sequencing

theorem drop_flatMap {α β : Type} {c : Nat} {f : α → List β} {l : List α}
    (h : ∀ a ∈ l, (f a).length = c) (i : Nat) :
    (l.flatMap f).drop (i * c) = (l.drop i).flatMap f := by
  induction l generalizing i with
  | nil => simp
  | cons a rest ih =>
    obtain ⟨ha, hrest⟩ := List.forall_mem_cons.mp h
    cases i with
    | zero => simp
    | succ i =>
      rw [List.flatMap_cons, List.drop_succ_cons, ← ih hrest, Nat.succ_mul, Nat.add_comm,
        ← List.drop_drop, ← ha, List.drop_left]

namespace Section

def filled (layout : Layout) (index : Nat) (path : String) (code : List UInt8) : Section :=
  ⟨index, path, code.length, code ++ List.replicate (layout.capacity - code.length) 0⟩

theorem pack_eq_ok_iff {layout : Layout} {index : Nat} {path : String} {code : List UInt8}
    {s : Section} : pack layout index path code = .ok s ↔
      code.length ≤ layout.capacity ∧ s = filled layout index path code := by
  unfold pack
  dsimp only
  split
  · next h => simp [Nat.not_le.mpr h]
  · next h => simp [Nat.not_lt.mp h, filled, eq_comm]

theorem length_bytes_filled {layout : Layout} {index : Nat} {path : String} {code : List UInt8}
    (h : code.length ≤ layout.capacity) :
    (filled layout index path code).bytes.length = layout.capacity := by
  simp only [filled, List.length_append, List.length_replicate]
  omega

end Section

namespace CompiledModule

def slot (layout : Layout) (m : CompiledModule) : Section :=
  .filled layout m.module.sectionIndex m.module.path m.code

/-- The offsets in an image that the choice of zero pushes changed in its section of an index. -/
def movedSubstitutions (layout : Layout) (m : CompiledModule) (index : Nat) : List Nat :=
  m.substitutions.map fun offset => layout.offsetOf index + offset

/-- What makes a module fit to be packed as the section of an index. -/
structure Linkable (layout : Layout) (m : CompiledModule) (index : Nat) : Prop where
  inOrder : m.module.sectionIndex = index
  fits : m.code.length ≤ layout.capacity
  offsets : ∀ offset ∈ m.substitutions, layout.offsetOf index + offset < UInt64.size

instance (layout : Layout) (m : CompiledModule) (index : Nat) :
    Decidable (m.Linkable layout index) :=
  decidable_of_iff (m.module.sectionIndex = index ∧ m.code.length ≤ layout.capacity ∧
    ∀ offset ∈ m.substitutions, layout.offsetOf index + offset < UInt64.size)
    ⟨fun ⟨ho, hf, hs⟩ => ⟨ho, hf, hs⟩, fun ⟨ho, hf, hs⟩ => ⟨ho, hf, hs⟩⟩

end CompiledModule

namespace Image

open CompiledModule

variable {layout : Layout} {variant : Variant} {compiled : List CompiledModule} {image : Image}

theorem checkNumber_eq_ok_iff {n k : Nat} :
    Misuse.checkNumber n = .ok k ↔ n < UInt64.size ∧ k = n := by
  unfold Misuse.checkNumber
  split
  · next h => simp [h, eq_comm]
  · next h => simp [h]

theorem packModule_eq_ok_iff {m : CompiledModule} {index : Nat} {r : Section × List Nat} :
    packModule layout m index = .ok r ↔
      m.Linkable layout index ∧ r = (m.slot layout, m.movedSubstitutions layout index) := by
  unfold packModule
  dsimp only
  by_cases hindex : m.module.sectionIndex = index
  · rw [if_neg (not_not_intro hindex), hindex]
    simp only [bind_eq_ok_iff, mapError_eq_ok_iff, Section.pack_eq_ok_iff,
      mapM_eq_ok_iff fun offset n => (mapError_eq_ok_iff (r := n)).trans checkNumber_eq_ok_iff]
    constructor
    · rintro ⟨_, ⟨hoffsets, rfl⟩, _, ⟨hfits, rfl⟩, h⟩
      subst hindex
      exact ⟨⟨rfl, hfits, hoffsets⟩, (Except.ok.inj h).symm⟩
    · rintro ⟨⟨_, hfits, hoffsets⟩, rfl⟩
      subst hindex
      exact ⟨_, ⟨hoffsets, rfl⟩, _, ⟨hfits, rfl⟩, rfl⟩
  · rw [if_pos hindex]
    constructor
    · intro h
      cases h
    · intro h
      exact absurd h.1.inOrder hindex

def linked (layout : Layout) (variant : Variant) (compiled : List CompiledModule) : Image where
  variant := variant
  layout := layout
  sections := .filled layout 0 "<dispatcher>" (dispatcher layout) :: compiled.map (slot layout)
  substitutions := (compiled.zipIdx 1).flatMap fun p => p.1.movedSubstitutions layout p.2

theorem length_dispatcher_le (layout : Layout) :
    (dispatcher layout).length ≤ layout.capacity := by
  have h : 2 ^ 5 ≤ 2 ^ layout.shift := Nat.pow_le_pow_right (by decide) layout.shift_ge
  exact Nat.le_trans (by simp [dispatcher]) h

/-- Assembling succeeds exactly on few enough modules that are numbered from 1 and fit, and then
every module stands unchanged in its section. -/
theorem assemble_eq_ok_iff : assemble layout variant compiled = .ok image ↔
    compiled.length < Layout.maxSections ∧
      (∀ p ∈ compiled.zipIdx 1, p.1.Linkable layout p.2) ∧
        image = linked layout variant compiled := by
  unfold assemble
  by_cases hlen : Layout.maxSections ≤ compiled.length
  · rw [if_pos hlen]
    constructor
    · intro h
      cases h
    · intro h
      omega
  · rw [if_neg hlen]
    have hpack (p : CompiledModule × Nat) (r : Section × List Nat) :
        packModule layout p.1 p.2 = .ok r ↔
          p.1.Linkable layout p.2 ∧ r = (p.1.slot layout, p.1.movedSubstitutions layout p.2) :=
      packModule_eq_ok_iff
    simp only [bind_eq_ok_iff, mapError_eq_ok_iff, Section.pack_eq_ok_iff, mapM_eq_ok_iff hpack]
    have hslots : (compiled.zipIdx 1).map (fun p => p.1.slot layout) =
        compiled.map (slot layout) := by
      have h := congrArg (List.map (slot layout)) (List.zipIdx_map_fst 1 compiled)
      rwa [List.map_map] at h
    constructor
    · rintro ⟨_, ⟨_, rfl⟩, _, ⟨hall, rfl⟩, h⟩
      refine ⟨by omega, hall, ?_⟩
      rw [← Except.ok.inj h, linked, ← hslots, List.map_map, List.flatMap_map]
      rfl
    · rintro ⟨_, hall, rfl⟩
      refine ⟨_, ⟨length_dispatcher_le layout, rfl⟩, _, ⟨hall, rfl⟩, ?_⟩
      rw [linked, ← hslots, List.map_map, List.flatMap_map]
      rfl

section

variable (h : assemble layout variant compiled = .ok image)

include h

theorem linkable_of_assemble {k : Nat} (hk : k < compiled.length) :
    compiled[k].Linkable layout (k + 1) := by
  refine (assemble_eq_ok_iff.mp h).2.1 (compiled[k], k + 1) ?_
  rw [List.mk_mem_zipIdx_iff_le_and_getElem?_sub]
  simp [hk]

theorem length_sections : image.sections.length = compiled.length + 1 := by
  obtain ⟨_, _, rfl⟩ := assemble_eq_ok_iff.mp h
  simp [linked]

theorem getElem?_sections_zero :
    image.sections[0]? = some (.filled layout 0 "<dispatcher>" (dispatcher layout)) := by
  obtain ⟨_, _, rfl⟩ := assemble_eq_ok_iff.mp h
  rfl

theorem getElem?_sections_succ {k : Nat} (hk : k < compiled.length) :
    image.sections[k + 1]? = some (compiled[k].slot layout) := by
  obtain ⟨_, _, rfl⟩ := assemble_eq_ok_iff.mp h
  simp [linked, hk]

theorem layout_of_assemble : image.layout = layout := by
  obtain ⟨_, _, rfl⟩ := assemble_eq_ok_iff.mp h
  rfl

theorem length_bytes_of_mem_sections : ∀ s ∈ image.sections, s.bytes.length = layout.capacity := by
  intro s hs
  obtain ⟨i, hi⟩ := List.mem_iff_getElem?.mp hs
  cases i with
  | zero =>
    rw [getElem?_sections_zero h] at hi
    cases hi
    exact Section.length_bytes_filled (length_dispatcher_le layout)
  | succ k =>
    have hk := (List.getElem?_eq_some_iff.mp hi).1
    rw [length_sections h] at hk
    rw [getElem?_sections_succ h (by omega)] at hi
    cases hi
    exact Section.length_bytes_filled (linkable_of_assemble h (by omega)).fits

/-- An image is as long as its dispatcher and its modules have room. -/
theorem length_of_assemble : image.length = layout.capacity * (compiled.length + 1) := by
  have hmap : image.sections.map (fun s => s.bytes.length) =
      image.sections.map fun _ => layout.capacity :=
    List.map_congr_left (length_bytes_of_mem_sections h)
  rw [length, bytes, List.length_flatMap, hmap, List.map_const', List.sum_replicate_nat,
    length_sections h, Nat.mul_comm]

theorem drop_bytes {i : Nat} {s : Section} (hs : image.sections[i]? = some s) :
    image.bytes.drop (i * layout.capacity) =
      s.bytes ++ image.bytes.drop ((i + 1) * layout.capacity) := by
  obtain ⟨hi, rfl⟩ := List.getElem?_eq_some_iff.mp hs
  unfold bytes
  rw [drop_flatMap (length_bytes_of_mem_sections h), drop_flatMap (length_bytes_of_mem_sections h),
    List.drop_eq_getElem_cons hi, List.flatMap_cons]

theorem getElem?_bytes_section {k : Nat} (hk : k < compiled.length) {o : Nat}
    (ho : o < compiled[k].code.length) :
    image.bytes[(k + 1) * layout.capacity + o]? = compiled[k].code[o]? := by
  rw [← List.getElem?_drop, drop_bytes h (getElem?_sections_succ h hk), CompiledModule.slot,
    Section.filled, List.append_assoc, List.getElem?_append_left ho]

theorem dispatcher_prefix_bytes : dispatcher layout <+: image.bytes := by
  have hb := drop_bytes h (getElem?_sections_zero h)
  rw [Nat.zero_mul, List.drop_zero, Section.filled, List.append_assoc] at hb
  rw [hb]
  exact List.prefix_append _ _

end

end Image

end ImageLinker
