import Mathlib.Order.Bounds.Basic
import ImageLinker.Proofs.Running

/-!
The walk of a code cuts it into instructions without gap or overlap. They start at the least set of
positions that the widths of their data allow, and only the last one can lack data. Jump
destinations and aligned patterns are looked for at these positions and nowhere else.
-/
namespace ImageLinker.Evm

namespace Instruction

def bytes (i : Instruction) : List UInt8 := i.opcode :: i.immediate

end Instruction

def offsets (code : List UInt8) : List Nat := (instructions code).map Instruction.offset

/-- Positions in a code that hold the first one and, with each, the one behind its data, as far as
the code goes. -/
structure ClosedUnderWalk (code : List UInt8) (positions : Set ℕ) : Prop where
  lt_length : ∀ o ∈ positions, o < code.length
  zero_mem : 0 < code.length → 0 ∈ positions
  next_mem : ∀ o ∈ positions, ∀ opcode, code[o]? = some opcode →
    o + 1 + Opcode.immediateLength opcode < code.length →
      o + 1 + Opcode.immediateLength opcode ∈ positions

variable {code pattern : List UInt8} {o : Nat}

theorem flatMap_bytes_instructionsFrom (offset : Nat) (code : List UInt8) :
    (instructionsFrom offset code).flatMap Instruction.bytes = code := by
  fun_induction instructionsFrom offset code with
  | case1 => rfl
  | case2 offset opcode rest width instruction ih =>
    have hfirst : instruction.bytes = opcode :: rest.take width := rfl
    rw [List.flatMap_cons, ih, hfirst, List.cons_append, List.take_append_drop]

theorem length_immediate_of_mem_dropLast (offset : Nat) (code : List UInt8) :
    ∀ i ∈ (instructionsFrom offset code).dropLast,
      i.immediate.length = Opcode.immediateLength i.opcode := by
  fun_induction instructionsFrom offset code with
  | case1 => simp
  | case2 offset opcode rest width instruction ih =>
    by_cases hrest : rest.drop width = []
    · simp [hrest]
    · -- Something follows, so the data in front of it is not cut short.
      have hwidth : width < rest.length := by
        simpa using hrest
      obtain ⟨b, more, hmore⟩ := List.exists_cons_of_ne_nil hrest
      have hnil : instructionsFrom instruction.next (rest.drop width) ≠ [] := by
        rw [hmore, instructionsFrom]
        exact List.cons_ne_nil _ _
      intro i hi
      rw [List.dropLast_cons_of_ne_nil hnil] at hi
      rcases List.mem_cons.mp hi with rfl | hi
      · simp only [instruction, List.length_take]
        exact Nat.min_eq_left (Nat.le_of_lt hwidth)
      · exact ih i hi

theorem mem_offsets : o ∈ offsets code ↔ Reaches code o ∧ o < code.length := by
  unfold offsets
  rw [List.mem_map]
  constructor
  · rintro ⟨i, hi, rfl⟩
    obtain ⟨hr, hop, _⟩ := (mem_instructions i).mp hi
    exact ⟨hr, (List.getElem?_eq_some_iff.mp hop).1⟩
  · rintro ⟨hr, hlt⟩
    obtain ⟨i, hi, hoffset, _⟩ := hr.exists_instruction (List.getElem?_eq_getElem hlt)
    exact ⟨i, hi, hoffset⟩

theorem closedUnderWalk_offsets (code : List UInt8) :
    ClosedUnderWalk code {o | o ∈ offsets code} where
  lt_length o ho := (mem_offsets.mp ho).2
  zero_mem h := mem_offsets.mpr ⟨.start, h⟩
  next_mem o ho opcode hop hlt := by
    have hr := (mem_offsets.mp ho).1
    exact mem_offsets.mpr ⟨hr.next hop, hlt⟩

/-- By induction on the walk: what it gets to inside the code is in every closed set. -/
theorem ClosedUnderWalk.mem_of_reaches {positions : Set ℕ} (h : ClosedUnderWalk code positions)
    (hr : Reaches code o) (hlt : o < code.length) : o ∈ positions := by
  induction hr with
  | start => exact h.zero_mem hlt
  | @next p opcode _ hop ih =>
    have hp : p ∈ positions := ih (List.getElem?_eq_some_iff.mp hop).1
    exact h.next_mem p hp opcode hop hlt

theorem isLeast_offsets (code : List UInt8) :
    IsLeast {positions | ClosedUnderWalk code positions} {o | o ∈ offsets code} := by
  refine ⟨closedUnderWalk_offsets code, fun positions hclosed o ho => ?_⟩
  obtain ⟨hr, hlt⟩ := mem_offsets.mp ho
  exact ClosedUnderWalk.mem_of_reaches hclosed hr hlt

theorem bytes_prefix_drop {i : Instruction} (hi : i ∈ instructions code) :
    i.bytes <+: code.drop i.offset := by
  obtain ⟨_, hop, himmediate⟩ := (mem_instructions i).mp hi
  obtain ⟨hlt, hget⟩ := List.getElem?_eq_some_iff.mp hop
  rw [Instruction.bytes, List.drop_eq_getElem_cons hlt, hget, himmediate]
  exact List.cons_prefix_cons.mpr ⟨rfl, List.take_prefix _ _⟩

theorem mem_jumpDestinations_iff_mem_offsets :
    o ∈ jumpDestinations code ↔ o ∈ offsets code ∧ code[o]? = some Opcode.jumpDest := by
  rw [mem_jumpDestinations, mem_offsets]
  constructor
  · rintro ⟨hr, hop⟩
    exact ⟨⟨hr, (List.getElem?_eq_some_iff.mp hop).1⟩, hop⟩
  · rintro ⟨⟨hr, _⟩, hop⟩
    exact ⟨hr, hop⟩

/-- The instructions of a code are the code, cut at the least positions that their widths allow. -/
theorem instructions_tile (code : List UInt8) :
    (instructions code).flatMap Instruction.bytes = code ∧
    (∀ i ∈ instructions code, i.bytes <+: code.drop i.offset) ∧
    IsLeast {positions | ClosedUnderWalk code positions} {o | o ∈ offsets code} ∧
    (offsets code).Pairwise (· < ·) ∧
    (∀ i ∈ (instructions code).dropLast,
      i.immediate.length = Opcode.immediateLength i.opcode) ∧
    (∀ o, o ∈ jumpDestinations code ↔ o ∈ offsets code ∧ code[o]? = some Opcode.jumpDest) ∧
    (∀ env o, (Frame.ofCode code env).isDestination o = true ↔
      o ∈ offsets code ∧ code[o]? = some Opcode.jumpDest) ∧
    ∀ pattern, pattern ≠ [] → (findAligned code pattern).Pairwise (· < ·) ∧
      ∀ o, o ∈ findAligned code pattern ↔ o ∈ offsets code ∧ pattern <+: code.drop o := by
  refine ⟨?_, fun i hi => bytes_prefix_drop hi, isLeast_offsets code,
    List.pairwise_map.mpr (pairwise_instructions code), ?_,
    fun o => mem_jumpDestinations_iff_mem_offsets, fun env o => ?_, fun pattern hne => ?_⟩
  · rw [instructions_eq]
    exact flatMap_bytes_instructionsFrom 0 code
  · rw [instructions_eq]
    exact length_immediate_of_mem_dropLast 0 code
  · rw [isDestination_ofCode, ← mem_jumpDestinations, mem_jumpDestinations_iff_mem_offsets]
  · refine ⟨pairwise_findAligned code pattern, fun o => ?_⟩
    rw [mem_findAligned hne, offsets, List.mem_map]

/-- The bytes of a `JUMPDEST` are found behind the data of a push, not in it, and the push that ends
the code has no data left. -/
theorem instructions_tile_truncated :
    [Opcode.jumpDest] ≠ [] ∧
      3 ∈ findAligned [Opcode.push2, 0x5b, 0x5b, 0x5b, Opcode.push1] [Opcode.jumpDest] ∧
      1 ∉ findAligned [Opcode.push2, 0x5b, 0x5b, 0x5b, Opcode.push1] [Opcode.jumpDest] := by
  have hne : [Opcode.jumpDest] ≠ [] := List.cons_ne_nil _ _
  have hoffsets : offsets [Opcode.push2, 0x5b, 0x5b, 0x5b, Opcode.push1] = [0, 3, 4] := by cbv
  have hfound := ((instructions_tile
    [Opcode.push2, 0x5b, 0x5b, 0x5b, Opcode.push1]).2.2.2.2.2.2.2 [Opcode.jumpDest] hne).2
  refine ⟨hne, (hfound 3).mpr ⟨?_, ?_⟩, fun h => ?_⟩
  · rw [hoffsets]
    decide
  · decide
  · have hmem := ((hfound 1).mp h).1
    rw [hoffsets] at hmem
    exact absurd hmem (by decide)

end ImageLinker.Evm
