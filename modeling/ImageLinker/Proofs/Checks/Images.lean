import ImageLinker.Proofs.Checks.Modules
import ImageLinker.Proofs.Packing

/-!
The checked steps from compiled modules to initcode: assembling an image, finding the deployed part
of a shim and patching it. No check fails, and the steps come to what the unchecked ones come to.
-/
namespace ImageLinker.Checked

variable {layout : Layout} {variant : Variant} {compiled : List CompiledModule}

def packModules (layout : Layout) (sections : List Section) (substitutions : List Nat) :
    List CompiledModule → Checked (List Section × List Nat)
  | [] => return (sections, substitutions)
  | m :: rest => do
    let index := m.module.sectionIndex
    assert (index = sections.length)
    let base ← number (layout.offsetOf index)
    let moved ← m.substitutions.mapM fun offset => number (base + offset)
    let packed ← ofExcept (Section.pack layout index m.module.path m.code)
    packModules layout (sections ++ [packed]) (substitutions ++ moved) rest

/-- Assembling. That there are more modules than the selector can tell apart counts as a breach, not
as the error of the configuration that it is: the check of a manifest rules it out. -/
def assemble (layout : Layout) (variant : Variant) (compiled : List CompiledModule) :
    Checked Image := do
  if Layout.maxSections ≤ compiled.length then breach .unreachable
  let head ← ofExcept (Section.pack layout 0 "<dispatcher>" (dispatcher layout))
  let (sections, substitutions) ← packModules layout [head] [] compiled
  let modules ← sub sections.length 1
  let length ← number (layout.capacity * (modules + 1))
  assert ((sections.flatMap (·.bytes)).length = length)
  return ⟨variant, layout, sections, substitutions⟩

theorem packModule_eq {m : CompiledModule}
    (h : m.OffsetsFit layout m.module.sectionIndex) :
    Image.packModule layout m m.module.sectionIndex =
      ((Section.pack layout m.module.sectionIndex m.module.path m.code).map fun packed =>
        (packed, m.movedSubstitutions layout m.module.sectionIndex)).mapError .error := by
  unfold Image.packModule
  dsimp only
  rw [if_neg (not_not_intro rfl), Image.mapM_checkNumber h]
  cases Section.pack layout m.module.sectionIndex m.module.path m.code <;> rfl

theorem packModules_matches (sections : List Section) (substitutions : List Nat)
    (hindex : compiled.map (·.module.sectionIndex) =
      List.range' sections.length compiled.length)
    (hlen : sections.length + compiled.length ≤ Layout.maxSections)
    (hoffsets : ∀ m ∈ compiled, m.OffsetsFit layout m.module.sectionIndex) :
    ∃ r : Except LinkError (List (Section × List Nat)),
      packModules layout sections substitutions compiled =
        ofExcept (r.map fun packed =>
          (sections ++ packed.map (·.1), substitutions ++ packed.flatMap (·.2))) ∧
      (compiled.zipIdx sections.length).mapM (fun p => Image.packModule layout p.1 p.2) =
        r.mapError .error := by
  induction compiled generalizing sections substitutions with
  | nil =>
    refine ⟨.ok [], ?_, rfl⟩
    rw [packModules, Except.map, List.map_nil, List.flatMap_nil, List.append_nil, List.append_nil]
    rfl
  | cons m rest ih =>
    rw [List.map_cons, List.length_cons, List.range'_succ] at hindex
    obtain ⟨hm, hrest⟩ := List.cons_eq_cons.mp hindex
    obtain ⟨hmOffsets, hrestOffsets⟩ := List.forall_mem_cons.mp hoffsets
    rw [List.length_cons] at hlen
    have hbase : number (layout.offsetOf m.module.sectionIndex) =
        .ok (layout.offsetOf m.module.sectionIndex) := number_eq (layout.offsetOf_lt (by omega))
    have hmoved : m.substitutions.mapM (fun offset =>
        number (layout.offsetOf m.module.sectionIndex + offset)) =
          .ok (m.movedSubstitutions layout m.module.sectionIndex) :=
      mapM_eq_ok fun offset hoffset => number_eq (hmOffsets offset hoffset)
    have hpackModule := packModule_eq hmOffsets
    rw [packModules, List.zipIdx_cons, List.mapM_cons]
    dsimp only
    rw [assert_eq hm, ok_bind, hbase, ok_bind, hmoved, ok_bind, ← hm, hpackModule]
    cases hpack : Section.pack layout m.module.sectionIndex m.module.path m.code with
    | error e => exact ⟨.error e, rfl, rfl⟩
    | ok packed =>
      have hnext : (sections ++ [packed]).length = m.module.sectionIndex + 1 := by
        rw [List.length_append, hm]
        rfl
      obtain ⟨r, hchecked, hmodel⟩ := ih (sections ++ [packed])
        (substitutions ++ m.movedSubstitutions layout m.module.sectionIndex)
        (by rw [hrest, hnext, hm]) (by omega) hrestOffsets
      rw [hnext] at hmodel
      refine ⟨r.map ((packed, m.movedSubstitutions layout m.module.sectionIndex) :: ·), ?_, ?_⟩
      · change packModules layout (sections ++ [packed]) _ rest = _
        rw [hchecked]
        cases r with
        | error e => rfl
        | ok all =>
          simp only [Except.map, List.map_cons, List.flatMap_cons, List.append_assoc,
            List.singleton_append]
      · rw [hmodel]
        cases r <;> rfl

/-- Modules in section order, fewer than the selector can tell apart, come to an image or to an
error of packing them. -/
theorem assemble_matches (hnum : Numbered compiled) (hlen : compiled.length < Layout.maxSections)
    (hoffsets : ∀ m ∈ compiled, m.OffsetsFit layout m.module.sectionIndex) :
    Matches (assemble layout variant compiled) (Image.assemble layout variant compiled) := by
  have hhead := Section.pack_eq_ok_iff.mpr
    ⟨Image.length_dispatcher_le layout, (rfl : _ = Section.filled layout 0 "<dispatcher>" _)⟩
  obtain ⟨r, hchecked, hmodel⟩ := packModules_matches
    [.filled layout 0 "<dispatcher>" (dispatcher layout)] [] hnum
    (by rw [List.length_singleton]; omega) hoffsets
  have hassemble : Image.assemble layout variant compiled = _ := Image.assemble_of_lt hlen
  rw [List.length_singleton] at hmodel
  rw [hmodel] at hassemble
  rw [assemble, if_neg (Nat.not_le.mpr hlen), hhead]
  change Matches (packModules layout [.filled layout 0 "<dispatcher>" (dispatcher layout)] []
    compiled >>= _) _
  rw [hchecked]
  cases r with
  | error e => exact ⟨.error e, rfl, hassemble⟩
  | ok packed =>
    let sections := Section.filled layout 0 "<dispatcher>" (dispatcher layout) ::
      packed.map (·.1)
    let image : Image := ⟨variant, layout, sections, packed.flatMap (·.2)⟩
    have himage : Image.assemble layout variant compiled = .ok image := hassemble
    have hsections : sections.length = compiled.length + 1 := Image.length_sections himage
    have hbytes : (sections.flatMap (·.bytes)).length = layout.capacity * (compiled.length + 1) :=
      Image.length_of_assemble himage
    have hsize : layout.capacity * (compiled.length + 1) < UInt64.size := by
      have hle := Nat.mul_le_mul layout.capacity_le (Nat.succ_le_of_lt hlen)
      have hnum : 8192 * Layout.maxSections < UInt64.size := by decide
      exact Nat.lt_of_le_of_lt hle hnum
    have hsub : sub sections.length 1 = .ok compiled.length := by
      rw [hsections]
      exact sub_eq (Nat.succ_pos _)
    refine ⟨.ok image, ?_, himage⟩
    change (do
      let modules ← sub sections.length 1
      let length ← number (layout.capacity * (modules + 1))
      assert ((sections.flatMap (·.bytes)).length = length)
      return ⟨variant, layout, sections, packed.flatMap (·.2)⟩ : Checked Image) = .ok image
    rw [hsub, ok_bind, number_eq hsize, ok_bind, assert_eq hbytes]
    rfl

def findAligned (code pattern : List UInt8) : Checked (List Nat) := do
  if pattern.isEmpty then return []
  let instructions ← instructionsFrom code 0
  let rests ← instructions.mapM fun instruction => do
    return (instruction.offset, ← range code instruction.offset code.length)
  return (rests.filter fun rest => pattern.isPrefixOf rest.2).map (·.1)

/-- What follows the first `RETURN INVALID` in compiler output. -/
def deployedCode (initcode : List UInt8) : Checked (Option (List UInt8)) := do
  match (← findAligned initcode [Evm.Opcode.ret, Evm.Opcode.invalid]).head? with
  | none => return none
  | some offset => return some (← range initcode (offset + 2) initcode.length)

/-- Copies data over what is between two positions, which has to be as long. -/
def overwrite (code : List UInt8) (start stop : Nat) (data : List UInt8) :
    Checked (List UInt8) := do
  let old ← range code start stop
  assert (old.length = data.length)
  return code.take start ++ data ++ code.drop stop

def patchShim (shim : List UInt8) (imageLength : Nat) : Checked (List UInt8) := do
  let offsets ← findAligned shim Initcode.offsetPlaceholder
  let lengths ← findAligned shim Initcode.lengthPlaceholder
  if offsets.isEmpty then report (.shimPatch .noOffsetPlaceholder)
  if lengths.isEmpty then report (.shimPatch .noLengthPlaceholder)
  if 255 < shim.length then report (.shimPatch (.tooLong shim.length))
  let (high, low) ← ofExcept (Initcode.lengthBytes imageLength)
  let patched ← setAll shim (offsets.map (· + 1)) (UInt8.ofNat shim.length)
  lengths.foldlM (fun code offset => overwrite code (offset + 1) (offset + 3) [high, low]) patched

def conditional (compiled : List UInt8) (push0 legacy : Image) : Checked (List UInt8) := do
  match ← deployedCode compiled with
  | none => report (.shimPatch .noBoundary)
  | some shim => return (← patchShim shim push0.length) ++ push0.bytes ++ legacy.bytes

theorem findAligned_eq (code pattern : List UInt8) :
    findAligned code pattern = .ok (Evm.findAligned code pattern) := by
  have hrests : (Evm.instructions code).mapM (fun i => do
      return (i.offset, ← range code i.offset code.length) : Evm.Instruction → Checked _) =
        .ok ((Evm.instructions code).map fun i => (i.offset, code.drop i.offset)) := by
    refine mapM_eq_ok fun i hi => ?_
    obtain ⟨_, hop, _⟩ := (Evm.mem_instructions i).mp hi
    have hlt := (List.getElem?_eq_some_iff.mp hop).1
    rw [range_length (Nat.le_of_lt hlt), ok_bind]
    rfl
  rw [findAligned, Evm.findAligned]
  split
  · rfl
  · rw [instructions_eq, ok_bind, hrests, ok_bind, List.filter_map, List.map_map, List.filter_map]
    simp only [Function.comp_def, Evm.extract_beq_eq_isPrefixOf]
    rfl

/-- A pattern that is found lies inside the code. -/
theorem add_length_le_of_mem_findAligned {code pattern : List UInt8} {offset : Nat}
    (h : offset ∈ Evm.findAligned code pattern) : offset + pattern.length ≤ code.length := by
  cases pattern with
  | nil => cases h
  | cons b pattern =>
    have hlen := ((Evm.mem_findAligned (List.cons_ne_nil b pattern)).mp h).2.length_le
    rw [List.length_cons, List.length_drop] at hlen
    rw [List.length_cons]
    omega

theorem deployedCode_eq (initcode : List UInt8) :
    deployedCode initcode = .ok (Initcode.deployedCode initcode) := by
  rw [deployedCode, findAligned_eq, ok_bind, Initcode.deployedCode]
  cases hhead : (Evm.findAligned initcode [Evm.Opcode.ret, Evm.Opcode.invalid]).head? with
  | none => rfl
  | some offset =>
    have hle : offset + 2 ≤ initcode.length :=
      add_length_le_of_mem_findAligned (List.mem_of_head? hhead)
    dsimp only
    rw [range_length hle, ok_bind]
    rfl

theorem overwrite_eq {code : List UInt8} {offset : Nat} (h : offset + 3 ≤ code.length)
    (high low : UInt8) : overwrite code (offset + 1) (offset + 3) [high, low] =
      .ok ((code.set (offset + 1) high).set (offset + 2) low) := by
  have hold : ((code.take (offset + 3)).drop (offset + 1)).length = [high, low].length := by
    rw [List.length_drop, List.length_take]
    simp
    omega
  rw [overwrite, range_eq (by omega) h, ok_bind, assert_eq hold, ok_bind]
  have htake : (code.take (offset + 1)).length = offset + 1 := by
    rw [List.length_take]
    omega
  have hindex : offset + 2 - (offset + 1) = 1 := by omega
  have hset : code.set (offset + 1) high =
      code.take (offset + 1) ++ high :: code.drop (offset + 2) := by
    rw [List.set_eq_take_append_cons_drop, if_pos (by omega)]
  have hdrop := List.drop_eq_getElem_cons (i := offset + 2) (l := code) (by omega)
  rw [hset, List.set_append_right _ _ (by omega), htake, hindex, List.set_cons_succ, hdrop,
    List.set_cons_zero, List.append_assoc]
  rfl

/-- Copying two bytes behind each of some offsets is setting them one after the other. -/
theorem overwriteAll_eq {code : List UInt8} {offsets : List Nat}
    (h : ∀ offset ∈ offsets, offset + 3 ≤ code.length) (high low : UInt8) :
    offsets.foldlM (fun code offset => overwrite code (offset + 1) (offset + 3) [high, low]) code =
      .ok (Initcode.setImmediates code.toArray offsets [high, low]).toList := by
  induction offsets generalizing code with
  | nil => rfl
  | cons offset rest ih =>
    obtain ⟨hoffset, hrest⟩ := List.forall_mem_cons.mp h
    rw [List.foldlM_cons, overwrite_eq hoffset, ok_bind, ih]
    · rw [Initcode.setImmediates, Initcode.setImmediates, List.foldl_cons]
      simp only [List.zipIdx_cons, List.zipIdx_nil, List.foldl_cons, List.foldl_nil,
        List.setIfInBounds_toArray]
    · intro i hi
      rw [List.length_set, List.length_set]
      exact hrest i hi

theorem patchShim_eq (shim : List UInt8) (imageLength : Nat) :
    patchShim shim imageLength = ofExcept (Initcode.patchShim shim imageLength) := by
  have hoffsets : ∀ i ∈ (Evm.findAligned shim Initcode.offsetPlaceholder).map (· + 1),
      i < shim.length := by
    intro i hi
    obtain ⟨offset, hoffset, rfl⟩ := List.mem_map.mp hi
    exact add_length_le_of_mem_findAligned hoffset
  have hlengths : ∀ offset ∈ Evm.findAligned shim Initcode.lengthPlaceholder,
      offset + 3 ≤ shim.length := fun offset hoffset => add_length_le_of_mem_findAligned hoffset
  rw [patchShim, findAligned_eq, ok_bind, findAligned_eq, ok_bind, Initcode.patchShim]
  by_cases hnoOffset : (Evm.findAligned shim Initcode.offsetPlaceholder).isEmpty
  · rw [if_pos hnoOffset, if_pos hnoOffset]
    rfl
  by_cases hnoLength : (Evm.findAligned shim Initcode.lengthPlaceholder).isEmpty
  · rw [if_neg hnoOffset, if_neg hnoOffset, if_pos hnoLength, if_pos hnoLength]
    rfl
  by_cases hlong : 255 < shim.length
  · rw [if_neg hnoOffset, if_neg hnoOffset, if_neg hnoLength, if_neg hnoLength, if_pos hlong,
      if_pos hlong]
    rfl
  rw [if_neg hnoOffset, if_neg hnoOffset, if_neg hnoLength, if_neg hnoLength, if_neg hlong,
    if_neg hlong]
  cases Initcode.lengthBytes imageLength with
  | error e => rfl
  | ok bytes =>
    obtain ⟨high, low⟩ := bytes
    let patched := Initcode.setImmediates shim.toArray
      (Evm.findAligned shim Initcode.offsetPlaceholder) [UInt8.ofNat shim.length]
    have hset : setAll shim ((Evm.findAligned shim Initcode.offsetPlaceholder).map (· + 1))
        (UInt8.ofNat shim.length) = .ok patched.toList := by
      rw [setAll_eq hoffsets, List.foldl_map]
      rfl
    have hsize : patched.toList.length = shim.length := Initcode.size_setImmediates _ _ _
    have hoverwrite := overwriteAll_eq (fun o ho => hsize ▸ hlengths o ho) high low
    rw [Array.toArray_toList] at hoverwrite
    change (setAll shim _ _ >>= fun patched => _) = _
    rw [hset, ok_bind, hoverwrite]
    rfl

theorem conditional_eq (compiled : List UInt8) (push0 legacy : Image) :
    conditional compiled push0 legacy = ofExcept (Initcode.conditional compiled push0 legacy) := by
  rw [conditional, deployedCode_eq, ok_bind, Initcode.conditional]
  cases Initcode.deployedCode compiled with
  | none => rfl
  | some shim =>
    dsimp only
    rw [patchShim_eq]
    cases Initcode.patchShim shim push0.length <;> rfl

end ImageLinker.Checked
