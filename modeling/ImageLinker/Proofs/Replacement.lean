import ImageLinker.Proofs.Checks.Modules
import ImageLinker.Proofs.Tiling

/-!
Replacing the `DUP1` bytes behind `PUSH0` changes opcodes of a code and nothing else: instructions
stay where they are and keep their data, and jumps may lead where they could before. Data of a push
that looks like the two opcodes is no site.
-/
namespace ImageLinker

namespace Evm

/-- Two codes of one length that have instructions with the same data at the same offsets, and the
same jump destinations. -/
structure SameStructure (code code' : List UInt8) : Prop where
  length_eq : code'.length = code.length
  offsets_eq : offsets code' = offsets code
  immediates_eq : (instructions code').map Instruction.immediate =
    (instructions code).map Instruction.immediate
  jumpDestinations_eq : jumpDestinations code' = jumpDestinations code
  isDestination_eq : ∀ env offset, (Frame.ofCode code' env).isDestination offset =
    (Frame.ofCode code env).isDestination offset

end Evm

namespace ZeroPush

open Evm

variable {code : List UInt8} {i : Instruction} {k : Nat}

def replaced (sites : List Nat) (i : Instruction) : Instruction :=
  if i.offset ∈ sites then { i with opcode := Opcode.push0 } else i

@[simp] theorem offset_replaced (sites : List Nat) (i : Instruction) :
    (replaced sites i).offset = i.offset := by
  unfold replaced
  split <;> rfl

@[simp] theorem immediate_replaced (sites : List Nat) (i : Instruction) :
    (replaced sites i).immediate = i.immediate := by
  unfold replaced
  split <;> rfl

theorem mem_sites_iff_mem_offsets : k ∈ sites code ↔ ∃ o ∈ offsets code,
    code[o]? = some Opcode.push0 ∧ o + 1 = k ∧ code[k]? = some Opcode.dup1 := by
  rw [mem_sites]
  constructor
  · rintro ⟨o, hr, hpush, hnext, hdup⟩
    have hlt := (List.getElem?_eq_some_iff.mp hpush).1
    exact ⟨o, mem_offsets.mpr ⟨hr, hlt⟩, hpush, hnext, hdup⟩
  · rintro ⟨o, ho, hpush, hnext, hdup⟩
    exact ⟨o, (mem_offsets.mp ho).1, hpush, hnext, hdup⟩

/-- A `PUSH0` has as little data as the `DUP1` whose place it takes. -/
theorem becomesIn_replaced (hi : i ∈ instructions code) :
    i.BecomesIn (replace code).1 (replaced (sites code) i) := by
  obtain ⟨hr, hop, hdata⟩ := (mem_instructions i).mp hi
  have hbyte : (replace code).1[i.offset]? = some (replaced (sites code) i).opcode := by
    rw [getElem?_replace]
    unfold replaced
    by_cases hsite : i.offset ∈ sites code
    · rw [if_pos hsite, if_pos hsite]
    · rw [if_neg hsite, if_neg hsite, hop]
  have hwidth := immediateLength_replace code i.offset
  rw [hbyte, hop, Option.map_some, Option.map_some, Option.some.injEq] at hwidth
  exact {
    offset_eq := offset_replaced _ i
    getElem?_eq := hbyte
    immediateLength_eq := hwidth
    immediate_eq := by rw [immediate_replaced, hdata, take_drop_replace hr hop] }

theorem instructions_replace (code : List UInt8) :
    instructions (replace code).1 = (instructions code).map (replaced (sites code)) :=
  instructions_eq_map (length_replace code) fun _ hi => becomesIn_replaced hi

theorem jumpDestinations_replace (code : List UInt8) :
    jumpDestinations (replace code).1 = jumpDestinations code := by
  refine jumpDestinations_eq_of_map (instructions_replace code)
    (fun i _ => offset_replaced _ i) fun i hi => ?_
  have hop := ((mem_instructions i).mp hi).2.1
  have hdest : (replace code).1[i.offset]? = some Opcode.jumpDest ↔
      code[i.offset]? = some Opcode.jumpDest := getElem?_replace_eq_jumpDest_iff
  rwa [(becomesIn_replaced hi).getElem?_eq, hop, Option.some.injEq, Option.some.injEq] at hdest

theorem sameStructure_replace (code : List UInt8) : SameStructure code (replace code).1 where
  length_eq := length_replace code
  offsets_eq := by
    unfold offsets
    rw [instructions_replace, List.map_map]
    simp only [Function.comp_def, offset_replaced]
  immediates_eq := by
    rw [instructions_replace, List.map_map]
    simp only [Function.comp_def, immediate_replaced]
  jumpDestinations_eq := jumpDestinations_replace code
  isDestination_eq _ offset := isDestination_replace offset

/-- The bytes of data that an instruction has are no sites. -/
theorem not_mem_sites_of_lt_next (hi : i ∈ instructions code) (hlt : i.offset < k)
    (hk : k < i.next) : k ∉ sites code := by
  obtain ⟨hr, hop, hdata⟩ := (mem_instructions i).mp hi
  have hlength : i.immediate.length ≤ Opcode.immediateLength i.opcode := by
    rw [hdata]
    exact List.length_take_le _ _
  unfold Instruction.next at hk
  exact not_mem_sites_of_data hr hop hlt (by omega)

/-- Replacing never stops at a check. It lists in order the offsets of the `DUP1` bytes that follow
a `PUSH0` instruction, puts a `PUSH0` there and changes no other byte. So instructions change in
their opcodes at most, and their data is not touched. -/
theorem replace_keeps_structure (code : List UInt8) :
    Checked.replaceZeroPushes code = .ok (replace code) ∧
    (replace code).2.Pairwise (· < ·) ∧
    (∀ k, k ∈ (replace code).2 ↔ ∃ o ∈ offsets code,
      code[o]? = some Opcode.push0 ∧ o + 1 = k ∧ code[k]? = some Opcode.dup1) ∧
    (∀ k : Nat, (replace code).1[k]? =
      if k ∈ (replace code).2 then some Opcode.push0 else code[k]?) ∧
    instructions (replace code).1 = (instructions code).map (replaced (replace code).2) ∧
    SameStructure code (replace code).1 ∧
    ∀ i ∈ instructions code, ∀ k, i.offset < k → k < i.next →
      k ∉ (replace code).2 ∧ (replace code).1[k]? = code[k]? := by
  refine ⟨Checked.replaceZeroPushes_eq code, pairwise_sites code,
    fun k => mem_sites_iff_mem_offsets, getElem?_replace code, instructions_replace code,
    sameStructure_replace code, fun i hi k hlt hk => ?_⟩
  have hsite := not_mem_sites_of_lt_next hi hlt hk
  refine ⟨hsite, ?_⟩
  rw [getElem?_replace, if_neg hsite]

/-- A push with the two opcodes as its data, and then `PUSH0 DUP1 DUP1`. -/
def pushedPair : List UInt8 := [0x61, 0x5f, 0x80, 0x5f, 0x80, 0x80]

/-- The two opcodes in the data of a push stay; of two `DUP1` behind a `PUSH0` only the first one is
replaced. -/
theorem replace_keeps_structure_data :
    replace pushedPair = ([0x61, 0x5f, 0x80, 0x5f, 0x5f, 0x80], [4]) ∧
    ⟨0, 0x61, [0x5f, 0x80]⟩ ∈ instructions pushedPair ∧
    Instruction.offset ⟨0, 0x61, [0x5f, 0x80]⟩ < 2 ∧
    2 < Instruction.next ⟨0, 0x61, [0x5f, 0x80]⟩ ∧
    2 ∉ (replace pushedPair).2 ∧ (replace pushedPair).1[2]? = pushedPair[2]? := by
  have hcode : instructions pushedPair =
      [⟨0, 0x61, [0x5f, 0x80]⟩, ⟨3, 0x5f, []⟩, ⟨4, 0x80, []⟩, ⟨5, 0x80, []⟩] := by cbv
  have hmem : ⟨0, 0x61, [0x5f, 0x80]⟩ ∈ instructions pushedPair := by
    rw [hcode]
    exact List.mem_cons_self
  have hbefore : Instruction.offset ⟨0, 0x61, [0x5f, 0x80]⟩ < 2 := by decide
  have hwithin : 2 < Instruction.next ⟨0, 0x61, [0x5f, 0x80]⟩ := by decide
  have hdata := (replace_keeps_structure pushedPair).2.2.2.2.2.2
  exact ⟨by cbv, hmem, hbefore, hwithin, hdata _ hmem 2 hbefore hwithin⟩

end ZeroPush

end ImageLinker
