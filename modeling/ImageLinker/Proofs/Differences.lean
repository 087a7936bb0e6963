import Mathlib.Data.List.Sort
import ImageLinker.Proofs.Packing
import ImageLinker.Proofs.Probing
import ImageLinker.Proofs.ZeroPush

/-!
Two images of the same bodies, one with replaced zero pushes and one without, differ exactly at the
offsets that the first one lists.
-/
namespace ImageLinker

/-- Increasing lists of numbers below a bound, each list so much further up than the one before. -/
theorem pairwise_flatMap_zipIdx {α : Type} {c : Nat} {f : α → List Nat} {l : List α} (n : Nat)
    (hsorted : ∀ a ∈ l, (f a).Pairwise (· < ·)) (hlt : ∀ a ∈ l, ∀ x ∈ f a, x < c) :
    ((l.zipIdx n).flatMap fun p => (f p.1).map (p.2 * c + ·)).Pairwise (· < ·) := by
  induction l generalizing n with
  | nil => exact .nil
  | cons a rest ih =>
    obtain ⟨ha, hrest⟩ := List.forall_mem_cons.mp hsorted
    obtain ⟨hac, hrestc⟩ := List.forall_mem_cons.mp hlt
    rw [List.zipIdx_cons, List.flatMap_cons, List.pairwise_append]
    refine ⟨?_, ih (n + 1) hrest hrestc, ?_⟩
    · rw [List.pairwise_map]
      exact ha.imp fun h => Nat.add_lt_add_left h _
    · intro x hx y hy
      obtain ⟨r, hr, rfl⟩ := List.mem_map.mp hx
      obtain ⟨p, hp, hy⟩ := List.mem_flatMap.mp hy
      obtain ⟨r', _, rfl⟩ := List.mem_map.mp hy
      have hblock : (n + 1) * c ≤ p.2 * c :=
        Nat.mul_le_mul_right c (List.le_snd_of_mem_zipIdx hp)
      have hr := hac r hr
      rw [Nat.succ_mul] at hblock
      dsimp only
      omega

namespace CompiledModule

def ofBodies (variant : Variant) (bodies : List (String × List UInt8)) : List CompiledModule :=
  (bodies.zipIdx 1).map fun ((path, body), index) => .ofBody ⟨path, index⟩ variant body

variable {layout : Layout} {variant : Variant} {bodies : List (String × List UInt8)}

theorem length_ofBodies (variant : Variant) (bodies : List (String × List UInt8)) :
    (ofBodies variant bodies).length = bodies.length := by
  rw [ofBodies, List.length_map, List.length_zipIdx]

theorem getElem?_ofBodies (k : Nat) : (ofBodies variant bodies)[k]? =
    bodies[k]?.map fun b => .ofBody ⟨b.1, k + 1⟩ variant b.2 := by
  rw [ofBodies, List.getElem?_map, List.getElem?_zipIdx, Option.map_map, Nat.add_comm 1 k]
  rfl

theorem length_code_ofBody (module : Module) (variant : Variant) (body : List UInt8) :
    (ofBody module variant body).code.length = body.length + 1 := by
  cases variant with
  | push0 => exact ZeroPush.length_replace _
  | legacy => rfl

theorem lt_of_mem_substitutions_ofBody {module : Module} {body : List UInt8} {offset : Nat}
    (h : offset ∈ (ofBody module variant body).substitutions) : offset < body.length + 1 := by
  cases variant with
  | push0 => exact (List.getElem?_eq_some_iff.mp (ZeroPush.getElem?_of_mem_sites h)).1
  | legacy => cases h

theorem linkable_ofBody {path : String} {body : List UInt8} {index : Nat}
    (hindex : index < Layout.maxSections) (hfit : body.length + 1 ≤ layout.capacity) :
    (ofBody ⟨path, index⟩ variant body).Linkable layout index := by
  refine ⟨by cases variant <;> rfl, by rwa [length_code_ofBody], ?_⟩
  refine OffsetsFit.of_lt hindex fun offset hoffset => ?_
  have hlt := lt_of_mem_substitutions_ofBody hoffset
  have hcap := layout.capacity_le
  omega

end CompiledModule

namespace Image

open CompiledModule

variable {layout : Layout} {variant : Variant} {compiled : List CompiledModule} {image : Image}
  {bodies : List (String × List UInt8)}

theorem assemble_ofBodies (hlen : bodies.length ≤ 255)
    (hfit : ∀ b ∈ bodies, b.2.length + 1 ≤ layout.capacity) :
    assemble layout variant (ofBodies variant bodies) =
      .ok (linked layout variant (ofBodies variant bodies)) := by
  refine assemble_eq_ok_iff.mpr ⟨?_, fun p hp => ?_, rfl⟩
  · rw [length_ofBodies]
    exact Nat.lt_succ_of_le hlen
  · obtain ⟨hle, hget⟩ := List.mk_mem_zipIdx_iff_le_and_getElem?_sub.mp hp
    rw [getElem?_ofBodies] at hget
    obtain ⟨b, hb, hp⟩ := Option.map_eq_some_iff.mp hget
    have hk := (List.getElem?_eq_some_iff.mp hb).1
    rw [Nat.sub_add_cancel hle] at hp
    rw [← hp]
    exact linkable_ofBody (show p.2 < 256 by omega) (hfit b (List.mem_of_getElem? hb))

theorem differingOffsets_of_length_eq {a b : Image} (h : a.length = b.length) :
    differingOffsets a b =
      .ok (((a.bytes.zip b.bytes).zipIdx.filter fun ((x, y), _) => x != y).map (·.2)) := by
  unfold differingOffsets
  exact if_neg (not_not_intro h)

/-- The increasing list of all offsets with different bytes is what comparing gives. -/
theorem differingOffsets_eq_ok {a b : Image} {l : List Nat} (hlen : a.length = b.length)
    (hsorted : l.Pairwise (· < ·)) (hl : ∀ i, i ∈ l ↔ a.bytes[i]? ≠ b.bytes[i]?) :
    differingOffsets a b = .ok l := by
  rw [differingOffsets_of_length_eq hlen]
  refine congrArg Except.ok (List.Pairwise.eq_of_mem_iff (r := (· < ·)) ?_ hsorted fun i => ?_)
  · rw [List.pairwise_map]
    apply List.Pairwise.filter
    rw [← List.pairwise_map, List.zipIdx_map_snd]
    exact List.pairwise_lt_range' 1
  · rw [hl]
    simp only [List.mem_map, List.mem_filter, List.mem_zipIdx_iff_getElem?,
      List.getElem?_zip_eq_some, bne_iff_ne]
    constructor
    · rintro ⟨p, ⟨⟨hx, hy⟩, hne⟩, rfl⟩
      rw [hx, hy]
      exact fun heq => hne (Option.some.inj heq)
    · intro hne
      -- images of one length have bytes at the same offsets
      have hlen : a.bytes.length = b.bytes.length := hlen
      by_cases hi : i < a.bytes.length
      · have hi' : i < b.bytes.length := hlen ▸ hi
        rw [List.getElem?_eq_getElem hi, List.getElem?_eq_getElem hi'] at hne
        exact ⟨((a.bytes[i], b.bytes[i]), i), ⟨⟨List.getElem?_eq_getElem hi,
          List.getElem?_eq_getElem hi'⟩, fun heq => hne (congrArg some heq)⟩, rfl⟩
      · have hle := Nat.le_of_not_lt hi
        rw [List.getElem?_eq_none hle, List.getElem?_eq_none (hlen ▸ hle)] at hne
        exact absurd rfl hne

theorem getElem?_bytes_code (h : assemble layout variant compiled = .ok image) {i r : Nat}
    {code : List UInt8} (hi : (codes layout compiled)[i]? = some code) (hr : r < layout.capacity) :
    image.bytes[i * layout.capacity + r]? =
      (code ++ List.replicate (layout.capacity - code.length) 0)[r]? := by
  rw [← take_code h hi, List.getElem?_take_of_lt hr, List.getElem?_drop]

theorem getElem?_codes_ofBodies (k : Nat) : (codes layout (ofBodies variant bodies))[k + 1]? =
    bodies[k]?.map fun b => (CompiledModule.ofBody ⟨b.1, k + 1⟩ variant b.2).code := by
  rw [codes, List.getElem?_cons_succ, List.getElem?_map, getElem?_ofBodies, Option.map_map]
  rfl

theorem mem_substitutions_ofBodies {i : Nat} :
    i ∈ (linked layout .push0 (ofBodies .push0 bodies)).substitutions ↔
      ∃ k b, bodies[k]? = some b ∧ ∃ r ∈ ZeroPush.sites (Evm.Opcode.jumpDest :: b.2),
        i = (k + 1) * layout.capacity + r := by
  constructor
  · intro h
    obtain ⟨p, hp, hi⟩ := List.mem_flatMap.mp h
    obtain ⟨r, hr, rfl⟩ := List.mem_map.mp hi
    obtain ⟨hle, hget⟩ := List.mk_mem_zipIdx_iff_le_and_getElem?_sub.mp hp
    rw [getElem?_ofBodies] at hget
    obtain ⟨b, hb, hp⟩ := Option.map_eq_some_iff.mp hget
    rw [← hp] at hr
    exact ⟨p.2 - 1, b, hb, r, hr, by rw [Nat.sub_add_cancel hle]; rfl⟩
  · rintro ⟨k, b, hb, r, hr, rfl⟩
    refine List.mem_flatMap.mpr ⟨(.ofBody ⟨b.1, k + 1⟩ .push0 b.2, k + 1), ?_, ?_⟩
    · rw [List.mk_mem_zipIdx_iff_le_and_getElem?_sub, Nat.add_sub_cancel, getElem?_ofBodies, hb]
      exact ⟨Nat.le_add_left 1 k, rfl⟩
    · exact List.mem_map.mpr ⟨r, hr, rfl⟩

/-- What an image lists goes up from one section to the next. -/
theorem pairwise_substitutions_ofBodies
    (hfit : ∀ b ∈ bodies, b.2.length + 1 ≤ layout.capacity) :
    (linked layout .push0 (ofBodies .push0 bodies)).substitutions.Pairwise (· < ·) := by
  refine pairwise_flatMap_zipIdx 1 (fun m hm => ?_) fun m hm offset hoffset => ?_
  · obtain ⟨k, hk⟩ := List.mem_iff_getElem?.mp hm
    rw [getElem?_ofBodies] at hk
    obtain ⟨b, _, rfl⟩ := Option.map_eq_some_iff.mp hk
    exact ZeroPush.pairwise_sites _
  · obtain ⟨k, hk⟩ := List.mem_iff_getElem?.mp hm
    rw [getElem?_ofBodies] at hk
    obtain ⟨b, hb, rfl⟩ := Option.map_eq_some_iff.mp hk
    exact Nat.lt_of_lt_of_le (lt_of_mem_substitutions_ofBody hoffset)
      (hfit b (List.mem_of_getElem? hb))

section

variable (hlen : bodies.length ≤ 255) (hfit : ∀ b ∈ bodies, b.2.length + 1 ≤ layout.capacity)

include hlen hfit

theorem length_linked_ofBodies (variant : Variant) :
    (linked layout variant (ofBodies variant bodies)).length =
      layout.capacity * (bodies.length + 1) := by
  rw [length_of_assemble (assemble_ofBodies hlen hfit), length_ofBodies]

/-- Bytes differ where a zero push of some body was replaced. -/
theorem getElem?_bytes_ne_iff {i : Nat} :
    (linked layout .push0 (ofBodies .push0 bodies)).bytes[i]? ≠
        (linked layout .legacy (ofBodies .legacy bodies)).bytes[i]? ↔
      ∃ k b, bodies[k]? = some b ∧ ∃ r ∈ ZeroPush.sites (Evm.Opcode.jumpDest :: b.2),
        i = (k + 1) * layout.capacity + r := by
  have hpush0 : assemble layout .push0 (ofBodies .push0 bodies) = .ok _ :=
    assemble_ofBodies hlen hfit
  have hlegacy : assemble layout .legacy (ofBodies .legacy bodies) = .ok _ :=
    assemble_ofBodies hlen hfit
  -- in a body's section both images have its code with zeros behind it
  have hbody {k r : Nat} {b : String × List UInt8} (hb : bodies[k]? = some b)
      (hr : r < layout.capacity) :
      (linked layout .push0 (ofBodies .push0 bodies)).bytes[(k + 1) * layout.capacity + r]? ≠
        (linked layout .legacy (ofBodies .legacy bodies)).bytes[(k + 1) * layout.capacity + r]? ↔
      r ∈ ZeroPush.sites (Evm.Opcode.jumpDest :: b.2) := by
    rw [getElem?_bytes_code hpush0 (by rw [getElem?_codes_ofBodies, hb]; rfl) hr,
      getElem?_bytes_code hlegacy (by rw [getElem?_codes_ofBodies, hb]; rfl) hr,
      length_code_ofBody, length_code_ofBody]
    exact ZeroPush.getElem?_replace_append_ne
  constructor
  · intro hne
    have hpos : 0 < layout.capacity := Nat.two_pow_pos layout.shift
    obtain ⟨q, r, hr, rfl⟩ : ∃ q r, r < layout.capacity ∧ i = q * layout.capacity + r :=
      ⟨i / layout.capacity, i % layout.capacity, Nat.mod_lt i hpos, (Nat.div_add_mod' i _).symm⟩
    cases q with
    | zero =>
      rw [getElem?_bytes_code hpush0 (i := 0) rfl hr,
        getElem?_bytes_code hlegacy (i := 0) rfl hr] at hne
      exact absurd rfl hne
    | succ k =>
      cases hb : bodies[k]? with
      | some b => exact ⟨k, b, hb, r, (hbody hb hr).mp hne, rfl⟩
      | none =>
        have hend : layout.capacity * (bodies.length + 1) ≤ (k + 1) * layout.capacity + r := by
          have hk := Nat.succ_le_succ (List.getElem?_eq_none_iff.mp hb)
          exact Nat.le_add_right_of_le (Nat.mul_comm _ (k + 1) ▸ Nat.mul_le_mul_left _ hk)
        have hlen' := length_linked_ofBodies hlen hfit
        rw [List.getElem?_eq_none ((hlen' .push0).trans_le hend),
          List.getElem?_eq_none ((hlen' .legacy).trans_le hend)] at hne
        exact absurd rfl hne
  · rintro ⟨k, b, hb, r, hr, rfl⟩
    have hlisted : r ∈ (CompiledModule.ofBody ⟨b.1, k + 1⟩ .push0 b.2).substitutions := hr
    have hlt := lt_of_mem_substitutions_ofBody hlisted
    have hcap := hfit b (List.mem_of_getElem? hb)
    exact (hbody hb (by omega)).mpr hr

end

/-- Bodies that fit make an image with replaced zero pushes and one without, and comparing the two
gives what the first one lists, in increasing order. -/
theorem differingOffsets_eq_substitutions (layout : Layout) (bodies : List (String × List UInt8))
    (hlen : bodies.length ≤ 255)
    (hfit : ∀ b ∈ bodies, (Evm.Opcode.jumpDest :: b.2).length ≤ layout.capacity) :
    ∃ push0 legacy,
      assemble layout .push0 (ofBodies .push0 bodies) = .ok push0 ∧
      assemble layout .legacy (ofBodies .legacy bodies) = .ok legacy ∧
      differingOffsets push0 legacy = .ok push0.substitutions ∧
      push0.substitutions.Pairwise (· < ·) := by
  refine ⟨_, _, assemble_ofBodies hlen hfit, assemble_ofBodies hlen hfit, ?_, ?_⟩
  · apply differingOffsets_eq_ok
    · rw [length_linked_ofBodies hlen hfit, length_linked_ofBodies hlen hfit]
    · exact pairwise_substitutions_ofBodies hfit
    · intro i
      rw [mem_substitutions_ofBodies, getElem?_bytes_ne_iff hlen hfit]
  · exact pairwise_substitutions_ofBodies hfit

/-- In the second body the first `PUSH0 DUP1` is data of a push. -/
def bodiesWithSites : List (String × List UInt8) :=
  [("a.yul", [0x5f, 0x80]), ("b.yul", [0x61, 0x5f, 0x80, 0x5f, 0x80, 0x80])]

theorem differingOffsets_eq_substitutions_sites :
    bodiesWithSites.length ≤ 255 ∧
    (∀ b ∈ bodiesWithSites, (Evm.Opcode.jumpDest :: b.2).length ≤
      (⟨5, by decide, by decide⟩ : Layout).capacity) ∧
    ∃ push0 legacy,
      assemble ⟨5, by decide, by decide⟩ .push0 (ofBodies .push0 bodiesWithSites) = .ok push0 ∧
      assemble ⟨5, by decide, by decide⟩ .legacy (ofBodies .legacy bodiesWithSites) = .ok legacy ∧
      differingOffsets push0 legacy = .ok [34, 69] := by
  have hlen : bodiesWithSites.length ≤ 255 := by decide
  have hfit : ∀ b ∈ bodiesWithSites, (Evm.Opcode.jumpDest :: b.2).length ≤
      (⟨5, by decide, by decide⟩ : Layout).capacity := by decide
  refine ⟨hlen, hfit, ?_⟩
  obtain ⟨push0, legacy, hpush0, hlegacy, hdiffer, _⟩ :=
    differingOffsets_eq_substitutions ⟨5, by decide, by decide⟩ bodiesWithSites hlen hfit
  refine ⟨push0, legacy, hpush0, hlegacy, ?_⟩
  obtain ⟨_, _, rfl⟩ := assemble_eq_ok_iff.mp hpush0
  have hfirst : ZeroPush.sites [0x5b, 0x5f, 0x80] = [2] := by cbv
  have hsecond : ZeroPush.sites [0x5b, 0x61, 0x5f, 0x80, 0x5f, 0x80, 0x80] = [5] := by cbv
  have hlisted : (linked ⟨5, by decide, by decide⟩ .push0
      (ofBodies .push0 bodiesWithSites)).substitutions = [34, 69] := by
    change (ZeroPush.sites [0x5b, 0x5f, 0x80]).map (32 + ·) ++
      ((ZeroPush.sites [0x5b, 0x61, 0x5f, 0x80, 0x5f, 0x80, 0x80]).map (64 + ·) ++ []) = [34, 69]
    rw [hfirst, hsecond]
    rfl
  rw [hdiffer, hlisted]

end Image

end ImageLinker
