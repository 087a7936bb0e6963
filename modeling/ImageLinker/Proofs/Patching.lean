import Mathlib.Data.List.Induction
import ImageLinker.Initcode
import ImageLinker.Proofs.Deployment
import ImageLinker.Proofs.Memory

/-!
A patched shim has the instructions of the shim, with the lengths in the place of the data of its
placeholders.
-/
namespace ImageLinker

namespace Evm

def Instruction.replaceData (opcode : UInt8) (old new : List UInt8) (i : Instruction) :
    Instruction :=
  if i.opcode = opcode ∧ i.immediate = old then { i with immediate := new } else i

@[simp] theorem Instruction.offset_replaceData (opcode : UInt8) (old new : List UInt8)
    (i : Instruction) : (i.replaceData opcode old new).offset = i.offset := by
  unfold replaceData
  split <;> rfl

@[simp] theorem Instruction.opcode_replaceData (opcode : UInt8) (old new : List UInt8)
    (i : Instruction) : (i.replaceData opcode old new).opcode = i.opcode := by
  unfold replaceData
  split <;> rfl

end Evm

namespace Initcode

open Evm

theorem foldl_zipIdx_eq_write (xs : Array UInt8) (start : Nat) (data : List UInt8) :
    (data.zipIdx start).foldl (fun xs (b, at_) => xs.setIfInBounds at_ b) xs =
      ((Memory.mk xs).write start data).bytes := by
  induction data generalizing xs start with
  | nil => rfl
  | cons b rest ih => exact ih _ _

theorem setImmediates_append_singleton (xs : Array UInt8) (offsets : List Nat) (o : Nat)
    (data : List UInt8) : setImmediates xs (offsets ++ [o]) data =
      ((Memory.mk (setImmediates xs offsets data)).write (o + 1) data).bytes := by
  unfold setImmediates
  rw [List.foldl_append, List.foldl_cons, List.foldl_nil, foldl_zipIdx_eq_write]

theorem size_setImmediates (xs : Array UInt8) (offsets : List Nat) (data : List UInt8) :
    (setImmediates xs offsets data).size = xs.size := by
  induction offsets using List.reverseRecOn with
  | nil => rfl
  | append_singleton offsets o ih =>
    rw [setImmediates_append_singleton, ← ih]
    exact Memory.size_write _ _ _

theorem getElem?_setImmediates_of_forall {xs : Array UInt8} {offsets : List Nat}
    {data : List UInt8} {k : Nat} (h : ∀ o ∈ offsets, k ≤ o ∨ o + data.length < k) :
    (setImmediates xs offsets data)[k]? = xs[k]? := by
  induction offsets using List.reverseRecOn with
  | nil => rfl
  | append_singleton offsets o ih =>
    have ho := h o (List.mem_append_right _ (List.mem_singleton_self o))
    rw [setImmediates_append_singleton, Memory.getElem?_write, if_neg (by omega)]
    exact ih fun o' ho' => h o' (List.mem_append_left _ ho')

/-- Data stays where it is put if no other offset's data is put there. -/
theorem getElem?_setImmediates_of_mem {xs : Array UInt8} {offsets : List Nat} {data : List UInt8}
    {o k : Nat} (ho : o ∈ offsets) (hk : o < k ∧ k ≤ o + data.length) (hsize : k < xs.size)
    (honly : ∀ o' ∈ offsets, o' < k → k ≤ o' + data.length → o' = o) :
    (setImmediates xs offsets data)[k]? = data[k - (o + 1)]? := by
  induction offsets using List.reverseRecOn with
  | nil => cases ho
  | append_singleton offsets last ih =>
    have hkeep : (setImmediates xs offsets data).size = xs.size := size_setImmediates _ _ _
    rw [setImmediates_append_singleton, Memory.getElem?_write]
    dsimp only
    by_cases hlast : last < k ∧ k ≤ last + data.length
    · obtain rfl := honly last (List.mem_append_right _ (List.mem_singleton_self last))
        hlast.1 hlast.2
      rw [if_pos (by omega)]
    · rw [if_neg (by omega)]
      refine ih ?_ fun o' ho' => honly o' (List.mem_append_left _ ho')
      rcases List.mem_append.mp ho with ho | ho
      · exact ho
      · obtain rfl := List.mem_singleton.mp ho
        exact absurd hk hlast

def replaceData (opcode : UInt8) (old new : List UInt8) (code : List UInt8) : List UInt8 :=
  (setImmediates code.toArray (findAligned code (opcode :: old)) new).toList

section

variable {opcode : UInt8} {old new : List UInt8}

theorem length_replaceData (opcode : UInt8) (old new code : List UInt8) :
    (replaceData opcode old new code).length = code.length := by
  rw [replaceData, Array.length_toList, size_setImmediates, List.size_toArray]

/-- Bytes that are in the data of no such instruction stay. -/
theorem getElem?_replaceData_of_forall (hold : old.length = Opcode.immediateLength opcode)
    (hnew : new.length = old.length) {code : List UInt8} {k : Nat}
    (h : ∀ o, ⟨o, opcode, old⟩ ∈ instructions code → k ≤ o ∨ o + old.length < k) :
    (replaceData opcode old new code)[k]? = code[k]? := by
  rw [replaceData, Array.getElem?_toList, getElem?_setImmediates_of_forall, List.getElem?_toArray]
  intro o ho
  rw [hnew]
  exact h o ((mem_findAligned_cons hold).mp ho)

theorem getElem?_replaceData_of_reaches (hold : old.length = Opcode.immediateLength opcode)
    (hnew : new.length = old.length) {code : List UInt8} {p : Nat} (hp : Reaches code p) :
    (replaceData opcode old new code)[p]? = code[p]? := by
  refine getElem?_replaceData_of_forall hold hnew fun o ho => ?_
  obtain ⟨hr, hop, _⟩ := (mem_instructions _).mp ho
  have := hr.le_or_next_le hop hp
  dsimp only at this
  omega

theorem getElem?_replaceData_of_mem (hold : old.length = Opcode.immediateLength opcode)
    (hnew : new.length = old.length) {code : List UInt8} {o : Nat}
    (hi : ⟨o, opcode, old⟩ ∈ instructions code) {j : Nat} (hj : j < old.length) :
    (replaceData opcode old new code)[o + 1 + j]? = new[j]? := by
  have himm := ((mem_instructions _).mp hi).2.2
  have hlen := congrArg List.length himm
  dsimp only at hlen
  rw [List.length_take, List.length_drop] at hlen
  rw [replaceData, Array.getElem?_toList,
    getElem?_setImmediates_of_mem ((mem_findAligned_cons hold).mpr hi) (by omega)
      (by rw [List.size_toArray]; omega), Nat.add_sub_cancel_left]
  intro o' ho' hlt hle
  exact offset_eq_of_data ((mem_findAligned_cons hold).mp ho') hi
    ⟨hlt, by rw [← hold, ← hnew]; exact hle⟩ (by dsimp only; omega)

theorem getElem?_replaceData_of_ne (hold : old.length = Opcode.immediateLength opcode)
    (hnew : new.length = old.length) {code : List UInt8} {i : Instruction}
    (hi : i ∈ instructions code) (hne : ¬ (i.opcode = opcode ∧ i.immediate = old)) {j : Nat}
    (hj : j < Opcode.immediateLength i.opcode) :
    (replaceData opcode old new code)[i.offset + 1 + j]? = code[i.offset + 1 + j]? := by
  refine getElem?_replaceData_of_forall hold hnew fun o hfound => ?_
  by_contra hcover
  obtain rfl : o = i.offset :=
    offset_eq_of_data hfound hi (k := i.offset + 1 + j) (by dsimp only; omega) (by omega)
  -- two instructions at one offset are the same
  obtain ⟨_, hop, himm⟩ := (mem_instructions i).mp hi
  obtain ⟨_, hop', himm'⟩ := (mem_instructions _).mp hfound
  rw [hop, Option.some.injEq] at hop'
  exact hne ⟨hop', by rw [himm, hop', ← himm']⟩

theorem take_drop_replaceData (hold : old.length = Opcode.immediateLength opcode)
    (hnew : new.length = old.length) {code : List UInt8} {i : Instruction}
    (hi : i ∈ instructions code) :
    ((replaceData opcode old new code).drop (i.offset + 1)).take (Opcode.immediateLength i.opcode) =
      (i.replaceData opcode old new).immediate := by
  apply List.ext_getElem?
  intro j
  by_cases hplace : i.opcode = opcode ∧ i.immediate = old
  · obtain ⟨o, opcode', immediate⟩ := i
    obtain ⟨rfl, rfl⟩ : opcode' = opcode ∧ immediate = old := hplace
    rw [Instruction.replaceData, if_pos ⟨rfl, rfl⟩]
    dsimp only at hold ⊢
    by_cases hj : j < Opcode.immediateLength opcode'
    · rw [List.getElem?_take_of_lt hj, List.getElem?_drop,
        getElem?_replaceData_of_mem hold hnew hi (hold ▸ hj)]
    · rw [List.getElem?_take_eq_none (Nat.le_of_not_lt hj), List.getElem?_eq_none (by omega)]
  · have himm := ((mem_instructions i).mp hi).2.2
    rw [Instruction.replaceData, if_neg hplace, himm]
    by_cases hj : j < Opcode.immediateLength i.opcode
    · rw [List.getElem?_take_of_lt hj, List.getElem?_take_of_lt hj, List.getElem?_drop,
        List.getElem?_drop, getElem?_replaceData_of_ne hold hnew hi hplace hj]
    · rw [List.getElem?_take_eq_none (Nat.le_of_not_lt hj),
        List.getElem?_take_eq_none (Nat.le_of_not_lt hj)]

theorem instructions_replaceData (hold : old.length = Opcode.immediateLength opcode)
    (hnew : new.length = old.length) (code : List UInt8) :
    instructions (replaceData opcode old new code) =
      (instructions code).map (Instruction.replaceData opcode old new) := by
  refine instructions_eq_map (length_replaceData _ _ _ _) fun i hi => ?_
  obtain ⟨hr, hop, _⟩ := (mem_instructions i).mp hi
  have hkept := Instruction.opcode_replaceData opcode old new i
  exact {
    offset_eq := Instruction.offset_replaceData opcode old new i
    getElem?_eq := by rw [getElem?_replaceData_of_reaches hold hnew hr, hop, hkept]
    immediateLength_eq := congrArg _ hkept
    immediate_eq := (take_drop_replaceData hold hnew hi).symm }

/-- Other data for one opcode leaves the instructions with another opcode where they are found. -/
theorem findAligned_replaceData (hold : old.length = Opcode.immediateLength opcode)
    (hnew : new.length = old.length) {opcode' : UInt8} {data : List UInt8}
    (hdata : data.length = Opcode.immediateLength opcode') (hne : opcode ≠ opcode')
    (code : List UInt8) : findAligned (replaceData opcode old new code) (opcode' :: data) =
      findAligned code (opcode' :: data) := by
  have hsame (i : Instruction) : ((i.replaceData opcode old new).opcode = opcode' ∧
      (i.replaceData opcode old new).immediate = data) ↔
        (i.opcode = opcode' ∧ i.immediate = data) := by
    unfold Instruction.replaceData
    split
    · rename_i hplace
      rw [hplace.1]
      exact ⟨fun h => absurd h.1 hne, fun h => absurd h.1 hne⟩
    · exact Iff.rfl
  rw [findAligned_cons hdata, findAligned_cons hdata, instructions_replaceData hold hnew,
    List.filter_map, List.map_map]
  simp only [Function.comp_def, hsame, Instruction.offset_replaceData]

end

def patched (shim : List UInt8) (n : Nat) : List UInt8 :=
  replaceData Opcode.push2 [0xff, 0xee] [UInt8.ofNat (n / 256), UInt8.ofNat n]
    (replaceData Opcode.push1 [0x33] [UInt8.ofNat shim.length] shim)

section

variable {shim : List UInt8} {n : Nat}

theorem findAligned_replaceData_offset (shim : List UInt8) (length : UInt8) :
    findAligned (replaceData Opcode.push1 [0x33] [length] shim) lengthPlaceholder =
      findAligned shim lengthPlaceholder := by
  unfold lengthPlaceholder
  apply findAligned_replaceData
  · decide
  · rfl
  · decide
  · decide

theorem patchShim_of_offset_missing (h : findAligned shim offsetPlaceholder = []) :
    patchShim shim n = .error (.shimPatch .noOffsetPlaceholder) := by
  unfold patchShim
  rw [h]
  rfl

theorem patchShim_of_length_missing (hoffset : findAligned shim offsetPlaceholder ≠ [])
    (h : findAligned shim lengthPlaceholder = []) :
    patchShim shim n = .error (.shimPatch .noLengthPlaceholder) := by
  unfold patchShim
  rw [h, if_neg (by simpa using hoffset)]
  rfl

theorem patchShim_of_long (hoffset : findAligned shim offsetPlaceholder ≠ [])
    (hlength : findAligned shim lengthPlaceholder ≠ []) (h : 255 < shim.length) :
    patchShim shim n = .error (.shimPatch (.tooLong shim.length)) := by
  unfold patchShim
  rw [if_neg (by simpa using hoffset), if_neg (by simpa using hlength), if_pos h]
  rfl

theorem patchShim_of_image_too_large (hoffset : findAligned shim offsetPlaceholder ≠ [])
    (hlength : findAligned shim lengthPlaceholder ≠ []) (hlong : shim.length ≤ 255)
    (h : maxImageLength < n) : patchShim shim n = .error (.imageTooLarge n maxImageLength) := by
  unfold patchShim
  rw [if_neg (by simpa using hoffset), if_neg (by simpa using hlength),
    if_neg (Nat.not_lt.mpr hlong), lengthBytes_of_lt h]
  rfl

theorem patchShim_of_le (hoffset : findAligned shim offsetPlaceholder ≠ [])
    (hlength : findAligned shim lengthPlaceholder ≠ []) (hlong : shim.length ≤ 255)
    (h : n ≤ maxImageLength) : patchShim shim n = .ok (patched shim n) := by
  unfold patchShim
  rw [if_neg (by simpa using hoffset), if_neg (by simpa using hlength),
    if_neg (Nat.not_lt.mpr hlong), lengthBytes_of_le h,
    ← findAligned_replaceData_offset shim (UInt8.ofNat shim.length)]
  rfl

theorem patchShim_eq_ok_iff {head : List UInt8} :
    patchShim shim n = .ok head ↔ (findAligned shim offsetPlaceholder ≠ [] ∧
      findAligned shim lengthPlaceholder ≠ [] ∧ shim.length ≤ 255 ∧ n ≤ maxImageLength) ∧
      head = patched shim n := by
  by_cases hoffset : findAligned shim offsetPlaceholder = []
  · simp [patchShim_of_offset_missing hoffset, hoffset]
  by_cases hlength : findAligned shim lengthPlaceholder = []
  · simp [patchShim_of_length_missing hoffset hlength, hlength]
  by_cases hlong : shim.length ≤ 255
  · by_cases hn : n ≤ maxImageLength
    · simp only [patchShim_of_le hoffset hlength hlong hn, Except.ok.injEq]
      exact ⟨fun h => ⟨⟨hoffset, hlength, hlong, hn⟩, h.symm⟩, fun h => h.2.symm⟩
    · have herror := patchShim_of_image_too_large hoffset hlength hlong (Nat.lt_of_not_le hn)
      simp only [herror, hn, and_false, false_and, reduceCtorEq]
  · have herror := patchShim_of_long (n := n) hoffset hlength (Nat.lt_of_not_le hlong)
    simp only [herror, hlong, and_false, false_and, reduceCtorEq]

theorem length_patched (shim : List UInt8) (n : Nat) : (patched shim n).length = shim.length := by
  rw [patched, length_replaceData, length_replaceData]

/-- Patching changes the data of the placeholders and nothing else. -/
theorem instructions_patched (shim : List UInt8) (n : Nat) :
    instructions (patched shim n) = (instructions shim).map fun i =>
      (i.replaceData Opcode.push1 [0x33] [UInt8.ofNat shim.length]).replaceData Opcode.push2
        [0xff, 0xee] [UInt8.ofNat (n / 256), UInt8.ofNat n] := by
  rw [patched, instructions_replaceData, instructions_replaceData, List.map_map]
  · rfl
  · decide
  · rfl
  · decide
  · rfl

theorem jumpDestinations_patched (shim : List UInt8) (n : Nat) :
    jumpDestinations (patched shim n) = jumpDestinations shim := by
  apply jumpDestinations_eq_of_map (instructions_patched shim n)
  · intro i _
    rw [Instruction.offset_replaceData, Instruction.offset_replaceData]
  · intro i _
    rw [Instruction.opcode_replaceData, Instruction.opcode_replaceData]

end

/-- The code in front of two images, against the shim that it was compiled from: where the shim
pushes a placeholder, it pushes the offset of the first image or the length of each. -/
structure HeadOf (shim head : List UInt8) (size : Nat) : Prop where
  length_eq : head.length = shim.length
  length_pos : 1 ≤ head.length
  length_le : head.length ≤ 255
  pushes_offset {o : Nat} (h : ⟨o, Opcode.push1, [0x33]⟩ ∈ instructions shim) :
    ∃ b : UInt8, b.toNat = head.length ∧ ⟨o, Opcode.push1, [b]⟩ ∈ instructions head
  pushes_size {o : Nat} (h : ⟨o, Opcode.push2, [0xff, 0xee]⟩ ∈ instructions shim) :
    ∃ high low : UInt8, 256 * high.toNat + low.toNat = size ∧
      ⟨o, Opcode.push2, [high, low]⟩ ∈ instructions head

theorem headOf_of_patchShim {shim head : List UInt8} {n : Nat}
    (h : patchShim shim n = .ok head) : HeadOf shim head n := by
  obtain ⟨⟨hoffsets, _, hlong, hn⟩, rfl⟩ := patchShim_eq_ok_iff.mp h
  have hlen := length_patched shim n
  unfold maxImageLength at hn
  refine ⟨hlen, ?_, hlen ▸ hlong, fun {o} hmem => ?_, fun {o} hmem => ?_⟩
  · rw [hlen]
    refine List.length_pos_iff.mpr fun hnil => hoffsets ?_
    rw [hnil]
    simp [findAligned, instructions_eq]
  · refine ⟨UInt8.ofNat shim.length, ?_, ?_⟩
    · rw [hlen, UInt8.toNat_ofNat']
      omega
    · rw [instructions_patched]
      exact List.mem_map.mpr ⟨_, hmem, rfl⟩
  · refine ⟨UInt8.ofNat (n / 256), UInt8.ofNat n, ?_, ?_⟩
    · rw [UInt8.toNat_ofNat', UInt8.toNat_ofNat']
      omega
    · rw [instructions_patched]
      exact List.mem_map.mpr ⟨_, hmem, rfl⟩

def IsPlaceholder (i : Instruction) : Prop :=
  i.opcode = Opcode.push1 ∧ i.immediate = [0x33] ∨
    i.opcode = Opcode.push2 ∧ i.immediate = [0xff, 0xee]

/-- What a compiled shim needs to be patched. -/
structure Patchable (shim : List UInt8) : Prop where
  pushes_offset : ∃ o, ⟨o, Opcode.push1, [0x33]⟩ ∈ instructions shim
  pushes_length : ∃ o, ⟨o, Opcode.push2, [0xff, 0xee]⟩ ∈ instructions shim
  length_le : shim.length ≤ 255

/-- A patched shim has other data in its placeholders and is the same shim everywhere else. -/
structure PatchOf (shim head : List UInt8) (size : Nat) : Prop extends HeadOf shim head size where
  opcodes : (instructions head).map (fun i => (i.offset, i.opcode)) =
    (instructions shim).map fun i => (i.offset, i.opcode)
  destinations : jumpDestinations head = jumpDestinations shim
  elsewhere {k : Nat} (h : ∀ i ∈ instructions shim, IsPlaceholder i →
    ¬ (i.offset < k ∧ k ≤ i.offset + i.immediate.length)) : head[k]? = shim[k]?

section

variable {shim : List UInt8} {n : Nat}

theorem findAligned_ne_nil_iff {opcode : UInt8} {data : List UInt8}
    (hdata : data.length = Opcode.immediateLength opcode) {code : List UInt8} :
    findAligned code (opcode :: data) ≠ [] ↔ ∃ o, ⟨o, opcode, data⟩ ∈ instructions code := by
  constructor
  · intro hne
    obtain ⟨o, ho⟩ := List.exists_mem_of_ne_nil _ hne
    exact ⟨o, (mem_findAligned_cons hdata).mp ho⟩
  · rintro ⟨o, ho⟩
    exact List.ne_nil_of_mem ((mem_findAligned_cons hdata).mpr ho)

theorem findAligned_offset_ne_nil_iff : findAligned shim offsetPlaceholder ≠ [] ↔
    ∃ o, ⟨o, Opcode.push1, [0x33]⟩ ∈ instructions shim :=
  findAligned_ne_nil_iff (by decide)

theorem findAligned_length_ne_nil_iff : findAligned shim lengthPlaceholder ≠ [] ↔
    ∃ o, ⟨o, Opcode.push2, [0xff, 0xee]⟩ ∈ instructions shim :=
  findAligned_ne_nil_iff (by decide)

/-- Outside the data of placeholders nothing is written. -/
theorem getElem?_patched_of_forall {k : Nat} (h : ∀ i ∈ instructions shim, IsPlaceholder i →
    ¬ (i.offset < k ∧ k ≤ i.offset + i.immediate.length)) : (patched shim n)[k]? = shim[k]? := by
  have houtside {o : Nat} {opcode : UInt8} {data : List UInt8}
      (hi : ⟨o, opcode, data⟩ ∈ instructions shim) (hplace : IsPlaceholder ⟨o, opcode, data⟩) :
      k ≤ o ∨ o + data.length < k := by
    have := h _ hi hplace
    dsimp only at this
    omega
  unfold patched
  rw [getElem?_replaceData_of_forall, getElem?_replaceData_of_forall]
  · decide
  · rfl
  · exact fun o ho => houtside ho (.inl ⟨rfl, rfl⟩)
  · decide
  · rfl
  · intro o ho
    have hfound := (mem_findAligned_cons (by decide)).mpr ho
    rw [← lengthPlaceholder, findAligned_replaceData_offset] at hfound
    exact houtside ((mem_findAligned_cons (by decide)).mp hfound) (.inr ⟨rfl, rfl⟩)

theorem patchOf_of_patchShim {head : List UInt8} (h : patchShim shim n = .ok head) :
    PatchOf shim head n := by
  have hhead := headOf_of_patchShim h
  obtain ⟨_, rfl⟩ := patchShim_eq_ok_iff.mp h
  refine ⟨hhead, ?_, jumpDestinations_patched shim n, getElem?_patched_of_forall⟩
  rw [instructions_patched, List.map_map]
  simp only [Function.comp_def, Instruction.opcode_replaceData, Instruction.offset_replaceData]

theorem Patchable.iff_found : Patchable shim ↔ findAligned shim offsetPlaceholder ≠ [] ∧
    findAligned shim lengthPlaceholder ≠ [] ∧ shim.length ≤ 255 := by
  rw [findAligned_offset_ne_nil_iff, findAligned_length_ne_nil_iff]
  exact ⟨fun ⟨ho, hl, hle⟩ => ⟨ho, hl, hle⟩, fun ⟨ho, hl, hle⟩ => ⟨ho, hl, hle⟩⟩

end

/-- A shim is patched exactly when it pushes both placeholders and is short enough, as is the image,
and then nothing but their data changes. What the shim lacks is told before the length of the
image. -/
theorem patchShim_patches_placeholders (shim : List UInt8) (n : Nat) :
    ((∃ head, patchShim shim n = .ok head) ↔ Patchable shim ∧ n ≤ 65535) ∧
    (∀ head, patchShim shim n = .ok head → PatchOf shim head n) ∧
    (¬ Patchable shim → ∃ fault, patchShim shim n = .error (.shimPatch fault)) ∧
    (Patchable shim → 65535 < n → patchShim shim n = .error (.imageTooLarge n 65535)) := by
  refine ⟨?_, fun head => patchOf_of_patchShim, fun hnot => ?_, fun hshim hn => ?_⟩
  · rw [Patchable.iff_found]
    constructor
    · rintro ⟨head, h⟩
      obtain ⟨⟨hoffset, hlength, hle, hn⟩, _⟩ := patchShim_eq_ok_iff.mp h
      exact ⟨⟨hoffset, hlength, hle⟩, hn⟩
    · rintro ⟨⟨hoffset, hlength, hle⟩, hn⟩
      exact ⟨_, patchShim_of_le hoffset hlength hle hn⟩
  · rw [Patchable.iff_found] at hnot
    by_cases hoffset : findAligned shim offsetPlaceholder = []
    · exact ⟨_, patchShim_of_offset_missing hoffset⟩
    by_cases hlength : findAligned shim lengthPlaceholder = []
    · exact ⟨_, patchShim_of_length_missing hoffset hlength⟩
    have hlong : ¬ shim.length ≤ 255 := fun hle => hnot ⟨hoffset, hlength, hle⟩
    exact ⟨_, patchShim_of_long hoffset hlength (Nat.lt_of_not_le hlong)⟩
  · obtain ⟨hoffset, hlength, hle⟩ := Patchable.iff_found.mp hshim
    exact patchShim_of_image_too_large hoffset hlength hle hn

def shimWithPlaceholderInData : List UInt8 := [0x61, 0x60, 0x33, 0x60, 0x33, 0x61, 0xff, 0xee]

theorem patchShim_patches_placeholders_in_data :
    (∃ head, patchShim shimWithPlaceholderInData 0x01c0 = .ok head ∧
      PatchOf shimWithPlaceholderInData head 0x01c0) ∧
    patchShim shimWithPlaceholderInData 65536 = .error (.imageTooLarge 65536 65535) := by
  have hwalk : instructions shimWithPlaceholderInData =
      [⟨0, 0x61, [0x60, 0x33]⟩, ⟨3, 0x60, [0x33]⟩, ⟨5, 0x61, [0xff, 0xee]⟩] := by cbv
  have hshim : Patchable shimWithPlaceholderInData := by
    refine ⟨⟨3, ?_⟩, ⟨5, ?_⟩, by decide⟩
    · rw [hwalk]
      decide
    · rw [hwalk]
      decide
  obtain ⟨hok, hpatch, _, _⟩ := patchShim_patches_placeholders shimWithPlaceholderInData 0x01c0
  obtain ⟨head, hhead⟩ := hok.mpr ⟨hshim, by decide⟩
  obtain ⟨_, _, _, hlarge⟩ := patchShim_patches_placeholders shimWithPlaceholderInData 65536
  exact ⟨⟨head, hhead, hpatch head hhead⟩, hlarge hshim (by decide)⟩

example : patchShim shimWithPlaceholderInData 0x01c0 =
    .ok [0x61, 0x60, 0x33, 0x60, 0x08, 0x61, 0x01, 0xc0] := by
  cbv

end Initcode

end ImageLinker
