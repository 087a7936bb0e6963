import ImageLinker.Proofs.Assembly
import ImageLinker.Proofs.Dispatch

/-! Which sections of an image the dispatcher can enter: those whose start the walk of the image
gets to. Push data that a section lacks is taken from the section behind it. -/
namespace ImageLinker.Image

open Evm

/-- The walk of a section's bytes, with the data of its last push in full, ends past the section. -/
def Spills (image : Image) (j : Nat) : Prop :=
  ∃ s, image.sections[j]? = some s ∧ image.layout.capacity < walkEnd s.bytes

/-- Every call whose data starts with this byte first jumps to the section of this index. -/
def Routes (image : Image) (i : Nat) : Prop :=
  ∀ env : Environment, env.selector = i →
    (run image.bytes env).jumps.head? = some (i * image.layout.capacity)

/-- Every call whose data starts with this byte ends at the dispatcher's jump. -/
def Refuses (image : Image) (i : Nat) : Prop :=
  ∀ env : Environment, env.selector = i →
    run image.bytes env =
      ⟨.faulted (.badJump 7 (.ofNat (i * image.layout.capacity))), [], 7⟩

theorem walkEnd_dispatcher (layout : Layout) : walkEnd (dispatcher layout) = 8 := by
  have h1 : Reaches (dispatcher layout) 1 :=
    Reaches.start.next (show (dispatcher layout)[0]? = some Opcode.returnDataSize from rfl)
  have h2 : Reaches (dispatcher layout) 2 :=
    h1.next (show (dispatcher layout)[1]? = some Opcode.callDataLoad from rfl)
  have h3 : Reaches (dispatcher layout) 3 :=
    h2.next (show (dispatcher layout)[2]? = some Opcode.returnDataSize from rfl)
  have h4 : Reaches (dispatcher layout) 4 :=
    h3.next (show (dispatcher layout)[3]? = some Opcode.byte from rfl)
  have h6 : Reaches (dispatcher layout) 6 :=
    h4.next (show (dispatcher layout)[4]? = some Opcode.push1 from rfl)
  have h7 : Reaches (dispatcher layout) 7 :=
    h6.next (show (dispatcher layout)[6]? = some Opcode.shl from rfl)
  have h8 : Reaches (dispatcher layout) 8 :=
    h7.next (show (dispatcher layout)[7]? = some Opcode.jump from rfl)
  exact walkEnd_eq_of_reaches h8 (Nat.le_refl 8)

/-- A section ends the walk of its code, unless the last push of the code has more data. -/
theorem walkEnd_filled {layout : Layout} {index : Nat} {path : String} {code : List UInt8}
    (h : code.length ≤ layout.capacity) :
    walkEnd (Section.filled layout index path code).bytes = max layout.capacity (walkEnd code) := by
  rw [Section.filled, walkEnd_append_zeros, Nat.add_sub_cancel' h]

section

variable {layout : Layout} {variant : Variant} {compiled : List CompiledModule} {image : Image}
  (h : assemble layout variant compiled = .ok image)

include h

theorem reaches_first_section : Reaches image.bytes (1 * layout.capacity) := by
  have hle := length_dispatcher_le layout
  have hsec := getElem?_sections_zero h
  have hb := drop_bytes h hsec
  have hlen := length_bytes_of_mem_sections h _ (List.mem_of_getElem? hsec)
  rw [Nat.zero_mul, List.drop_zero] at hb
  rw [hb, Nat.one_mul, ← hlen, reaches_seam, walkEnd_filled hle, hlen, walkEnd_dispatcher]
  exact Nat.max_eq_left hle

/-- The walk gets from one section to the start of the next one exactly when it does not spill. -/
theorem reaches_next_section {j : Nat} {s : Section} (hs : image.sections[j]? = some s)
    (hj : Reaches image.bytes (j * layout.capacity)) :
    Reaches image.bytes ((j + 1) * layout.capacity) ↔ ¬ image.Spills j := by
  have hlen := length_bytes_of_mem_sections h s (List.mem_of_getElem? hs)
  have hspills : image.Spills j ↔ layout.capacity < walkEnd s.bytes := by
    simp [Spills, hs, layout_of_assemble h]
  have hend := length_le_walkEnd s.bytes
  rw [Nat.succ_mul, ← hj.drop_iff, drop_bytes h hs, ← hlen, reaches_seam, hspills, ← hlen]
  omega

/-- A module spills exactly when its own walk ends past the capacity. -/
theorem spills_succ_iff {k : Nat} (hk : k < compiled.length) :
    image.Spills (k + 1) ↔ layout.capacity < walkEnd compiled[k].code := by
  have hfits := (linkable_of_assemble h hk).fits
  unfold Spills
  rw [getElem?_sections_succ h hk, layout_of_assemble h]
  simp only [Option.some.injEq, exists_eq_left']
  rw [CompiledModule.slot, walkEnd_filled hfits]
  omega

/-- Without a spilling section before it the walk gets to the start of a section. -/
theorem reaches_section {k : Nat} (hk : k < compiled.length)
    (hs : ∀ j, 1 ≤ j → j ≤ k → ¬ image.Spills j) :
    Reaches image.bytes ((k + 1) * layout.capacity) := by
  induction k with
  | zero => exact reaches_first_section h
  | succ k ih =>
    have hprev := ih (by omega) fun j hj hle => hs j hj (by omega)
    have hsec := getElem?_sections_succ h (k := k) (by omega)
    exact (reaches_next_section h hsec hprev).mpr (hs (k + 1) (by omega) (Nat.le_refl _))

variable {k : Nat} (hk : k < compiled.length)

include hk

/-- No section is both entered and refused. -/
theorem not_routes_of_refuses (hr : image.Refuses (k + 1)) : ¬ image.Routes (k + 1) := by
  intro hroutes
  have hlt : k + 1 < 256 := Nat.lt_of_le_of_lt hk (assemble_eq_ok_iff.mp h).1
  have hsel : (⟨[UInt8.ofNat (k + 1)], false⟩ : Environment).selector = k + 1 := by
    simp [Environment.selector, Nat.mod_eq_of_lt hlt]
  have hfirst := hroutes _ hsel
  rw [hr _ hsel] at hfirst
  cases hfirst

/-- The walk of an image gets to a section exactly when the walk of what lies before it ends
there. -/
theorem reaches_section_iff_walkEnd : Reaches image.bytes ((k + 1) * layout.capacity) ↔
    walkEnd (image.bytes.take ((k + 1) * layout.capacity)) = (k + 1) * layout.capacity := by
  have hdrop := congrArg List.length (drop_bytes h (getElem?_sections_succ h hk))
  have hmem := List.mem_of_getElem? (getElem?_sections_succ h hk)
  have hcap : 0 < layout.capacity := Nat.two_pow_pos layout.shift
  rw [List.length_append, length_bytes_of_mem_sections h _ hmem, List.length_drop] at hdrop
  have hlen : (image.bytes.take ((k + 1) * layout.capacity)).length =
      (k + 1) * layout.capacity := by
    rw [List.length_take, Nat.min_eq_left (by omega)]
  have hseam := reaches_seam (a := image.bytes.take ((k + 1) * layout.capacity))
    (b := image.bytes.drop ((k + 1) * layout.capacity))
  rwa [List.take_append_drop, hlen] at hseam

variable (hjd : compiled[k].code.head? = some Opcode.jumpDest)

include hjd

/-- A section that starts with a destination can be jumped to exactly when the walk gets there. -/
theorem isDestination_section (env : Environment) :
    (Frame.ofCode image.bytes env).isDestination ((k + 1) * layout.capacity) = true ↔
      Reaches image.bytes ((k + 1) * layout.capacity) := by
  have hpos : 0 < compiled[k].code.length := by
    cases hcode : compiled[k].code with
    | nil => simp [hcode] at hjd
    | cons _ _ => exact Nat.zero_lt_succ _
  have hbyte := getElem?_bytes_section h hk hpos
  rw [Nat.add_zero, ← List.head?_eq_getElem?, hjd] at hbyte
  rw [isDestination_ofCode, hbyte]
  exact and_iff_left rfl

theorem routes_of_reaches (hr : Reaches image.bytes ((k + 1) * layout.capacity)) :
    image.Routes (k + 1) := by
  intro env hsel
  have hdest := (isDestination_section h hk hjd env).mpr hr
  rw [← hsel] at hdest
  rw [layout_of_assemble h, ← hsel]
  exact Dispatch.head?_jumps_of_isDestination (dispatcher_prefix_bytes h) hdest

theorem refuses_of_not_reaches (hr : ¬ Reaches image.bytes ((k + 1) * layout.capacity)) :
    image.Refuses (k + 1) := by
  intro env hsel
  have hdest := mt (isDestination_section h hk hjd env).mp hr
  rw [Bool.not_eq_true, ← hsel] at hdest
  rw [layout_of_assemble h, ← hsel]
  exact Dispatch.run_of_not_isDestination (dispatcher_prefix_bytes h) hdest

theorem routes_iff_reaches :
    image.Routes (k + 1) ↔ Reaches image.bytes ((k + 1) * layout.capacity) := by
  refine ⟨fun hroutes => ?_, routes_of_reaches h hk hjd⟩
  by_cases hr : Reaches image.bytes ((k + 1) * layout.capacity)
  · exact hr
  · have hrefuses := refuses_of_not_reaches h hk hjd hr
    exact absurd hroutes (not_routes_of_refuses h hk hrefuses)

theorem refuses_iff_not_reaches :
    image.Refuses (k + 1) ↔ ¬ Reaches image.bytes ((k + 1) * layout.capacity) := by
  refine ⟨fun hrefuses hr => ?_, refuses_of_not_reaches h hk hjd⟩
  exact not_routes_of_refuses h hk hrefuses (routes_of_reaches h hk hjd hr)

end

/-- Two modules of which the first one ends inside a push of 32 bytes. -/
def truncated : List CompiledModule :=
  [⟨⟨"a.yul", 1⟩, [0x5b, 0x7f], []⟩, ⟨⟨"b.yul", 2⟩, [0x5b, 0x00], []⟩]

theorem spills_truncated {layout : Layout} {variant : Variant} {image : Image}
    (h : assemble layout variant truncated = .ok image) (hcap : layout.capacity = 32) :
    image.Spills 1 := by
  have hpush : Reaches [0x5b, 0x7f] 1 :=
    Reaches.start.next (show [0x5b, 0x7f][0]? = some Opcode.jumpDest from rfl)
  have hend : Reaches [0x5b, 0x7f] 34 :=
    hpush.next (show [0x5b, 0x7f][1]? = some Opcode.push32 from rfl)
  have hwalk : walkEnd truncated[0].code = 34 := walkEnd_eq_of_reaches hend (by decide)
  rw [spills_succ_iff h (by decide), hcap, hwalk]
  decide

section

variable {layout : Layout} {variant : Variant} {compiled : List CompiledModule} {image : Image}
  (h : assemble layout variant compiled = .ok image)
  (hjd : ∀ m ∈ compiled, m.code.head? = some Opcode.jumpDest)

include h hjd

theorem routes_of_not_spills {i : Nat} (hpos : 1 ≤ i) (hi : i ≤ compiled.length)
    (hs : ∀ j, 1 ≤ j → j < i → ¬ image.Spills j) : image.Routes i := by
  obtain ⟨k, rfl⟩ := Nat.exists_eq_add_of_le' hpos
  have hr := reaches_section h (k := k) hi fun j hj hle => hs j hj (Nat.lt_succ_of_le hle)
  exact routes_of_reaches h hi (hjd _ (List.getElem_mem _)) hr

theorem refuses_of_spills {j : Nat} (hpos : 1 ≤ j) (hj : j < compiled.length)
    (hspills : image.Spills j) (hs : ∀ i, 1 ≤ i → i < j → ¬ image.Spills i) :
    image.Refuses (j + 1) := by
  obtain ⟨k, rfl⟩ := Nat.exists_eq_add_of_le' hpos
  have hk : k < compiled.length := Nat.lt_of_succ_lt hj
  have hr := reaches_section h hk fun i hi hle => hs i hi (Nat.lt_succ_of_le hle)
  have hnext := reaches_next_section h (getElem?_sections_succ h hk) hr
  exact refuses_of_not_reaches h hj (hjd _ (List.getElem_mem _)) fun hreach =>
    hnext.mp hreach hspills

theorem not_spills_of_routes (hroutes : ∀ i, 1 ≤ i → i ≤ compiled.length → image.Routes i)
    {j : Nat} (hpos : 1 ≤ j) (hj : j < compiled.length) : ¬ image.Spills j := by
  induction j using Nat.strongRecOn with
  | ind j ih =>
    -- The first section that spills would have the next one refused.
    intro hspills
    have hrefuses := refuses_of_spills h hjd hpos hj hspills fun i hi hlt =>
      ih i hlt hi (Nat.lt_trans hlt hj)
    exact not_routes_of_refuses h hj hrefuses (hroutes (j + 1) (Nat.succ_pos j) hj)

/-- The dispatcher enters every section up to the first one that spills into the next, and refuses
that next one. -/
theorem routes_until_first_spill :
    ((∀ j, 1 ≤ j → j < compiled.length → ¬ image.Spills j) →
      ∀ i, 1 ≤ i → i ≤ compiled.length → image.Routes i) ∧
    (∀ j, 1 ≤ j → j < compiled.length → image.Spills j →
      (∀ l, 1 ≤ l → l < j → ¬ image.Spills l) →
        (∀ i, 1 ≤ i → i ≤ j → image.Routes i) ∧ image.Refuses (j + 1)) ∧
    ((∀ i, 1 ≤ i → i ≤ compiled.length → image.Routes i) ↔
      ∀ j, 1 ≤ j → j < compiled.length → ¬ image.Spills j) := by
  have hall : (∀ j, 1 ≤ j → j < compiled.length → ¬ image.Spills j) →
      ∀ i, 1 ≤ i → i ≤ compiled.length → image.Routes i := by
    intro hs i hpos hi
    exact routes_of_not_spills h hjd hpos hi fun j hj hlt => hs j hj (Nat.lt_of_lt_of_le hlt hi)
  refine ⟨hall, ?_, ?_⟩
  · intro j hpos hj hspills hs
    constructor
    · intro i hi hle
      exact routes_of_not_spills h hjd hi (Nat.le_trans hle (Nat.le_of_lt hj)) fun l hl hlt =>
        hs l hl (Nat.lt_of_lt_of_le hlt hle)
    · exact refuses_of_spills h hjd hpos hj hspills hs
  · constructor
    · intro hroutes j hpos hj
      exact not_spills_of_routes h hjd hroutes hpos hj
    · exact hall

end

theorem routes_until_first_spill_truncated :
    (linked ⟨5, by decide, by decide⟩ .legacy truncated).Routes 1 ∧
      (linked ⟨5, by decide, by decide⟩ .legacy truncated).Refuses 2 := by
  have h : assemble ⟨5, by decide, by decide⟩ .legacy truncated =
      .ok (linked ⟨5, by decide, by decide⟩ .legacy truncated) :=
    assemble_eq_ok_iff.mpr ⟨by decide, by decide, rfl⟩
  obtain ⟨_, hfirst, _⟩ := routes_until_first_spill h (by decide)
  obtain ⟨hroutes, hrefuses⟩ := hfirst 1 (Nat.le_refl 1) (by decide) (spills_truncated h rfl)
    fun l hl hlt => absurd hlt (Nat.not_lt.mpr hl)
  exact ⟨hroutes 1 (Nat.le_refl 1) (Nat.le_refl 1), hrefuses⟩

/-- Modules that fit are linked, and a call enters the selected one exactly when the walk of what
lies before it ends where it starts; every other call ends at the dispatcher's jump. -/
theorem routes_iff_walkEnd {layout : Layout} {variant : Variant} {compiled : List CompiledModule}
    (hlen : compiled.length < Layout.maxSections)
    (hlink : ∀ p ∈ compiled.zipIdx 1, p.1.Linkable layout p.2)
    (hjd : ∀ m ∈ compiled, m.code.head? = some Opcode.jumpDest) :
    ∃ image, assemble layout variant compiled = .ok image ∧
      ∀ i, 1 ≤ i → i ≤ compiled.length →
        (image.Routes i ↔
          walkEnd (image.bytes.take (i * layout.capacity)) = i * layout.capacity) ∧
        (image.Refuses i ↔
          walkEnd (image.bytes.take (i * layout.capacity)) ≠ i * layout.capacity) := by
  have h : assemble layout variant compiled = .ok (linked layout variant compiled) :=
    assemble_eq_ok_iff.mpr ⟨hlen, hlink, rfl⟩
  refine ⟨_, h, fun i hpos hi => ?_⟩
  obtain ⟨k, rfl⟩ := Nat.exists_eq_add_of_le' hpos
  have hcode := hjd _ (List.getElem_mem hi)
  have hwalk := reaches_section_iff_walkEnd h hi
  constructor
  · exact (routes_iff_reaches h hi hcode).trans hwalk
  · exact (refuses_iff_not_reaches h hi hcode).trans (not_congr hwalk)

theorem routes_iff_walkEnd_truncated :
    ∃ image, assemble ⟨5, by decide, by decide⟩ .legacy truncated = .ok image ∧
      ∀ i, 1 ≤ i → i ≤ 2 →
        (image.Routes i ↔ walkEnd (image.bytes.take (i * 32)) = i * 32) ∧
        (image.Refuses i ↔ walkEnd (image.bytes.take (i * 32)) ≠ i * 32) :=
  routes_iff_walkEnd (by decide) (by decide) (by decide)

/-- A jump destination at its start does not make a section one that calls enter. -/
theorem not_forall_routes_of_linkable :
    ¬ ∀ (layout : Layout) (variant : Variant) (compiled : List CompiledModule),
      1 ≤ compiled.length → compiled.length < Layout.maxSections →
      (∀ p ∈ compiled.zipIdx 1, p.1.Linkable layout p.2) →
      (∀ m ∈ compiled, m.code.head? = some Opcode.jumpDest) →
      ∃ image, assemble layout variant compiled = .ok image ∧
        ∀ i, 1 ≤ i → i ≤ compiled.length → image.Routes i := by
  intro hall
  obtain ⟨image, h, hroutes⟩ := hall ⟨5, by decide, by decide⟩ .legacy truncated
    (by decide) (by decide) (by decide) (by decide)
  have hspills : image.Spills 1 := spills_truncated h rfl
  exact not_spills_of_routes h (by decide) hroutes (Nat.le_refl 1) (by decide) hspills

section

variable {layout : Layout} {variant : Variant} {compiled : List CompiledModule} {image : Image}
  (h : assemble layout variant compiled = .ok image)

include h

/-- Neither the dispatcher's own start nor an offset past the image can be jumped to. -/
theorem not_isDestination_of_unmapped {env : Environment}
    (hsel : env.selector = 0 ∨ compiled.length < env.selector) :
    (Frame.ofCode image.bytes env).isDestination (env.selector * layout.capacity) = false := by
  have hbyte : image.bytes[env.selector * layout.capacity]? ≠ some Opcode.jumpDest := by
    rcases hsel with hzero | hlast
    · have hfirst : image.bytes[0]? = some Opcode.returnDataSize := by
        obtain ⟨rest, hrest⟩ := dispatcher_prefix_bytes h
        rw [← hrest]
        rfl
      rw [hzero, Nat.zero_mul, hfirst]
      decide
    · have hlen : image.bytes.length = layout.capacity * (compiled.length + 1) :=
        length_of_assemble h
      have hle : layout.capacity * (compiled.length + 1) ≤ env.selector * layout.capacity := by
        rw [Nat.mul_comm]
        exact Nat.mul_le_mul_right _ hlast
      rw [List.getElem?_eq_none (hlen ▸ hle)]
      simp
  rw [← Bool.not_eq_true, isDestination_ofCode]
  exact fun hdest => hbyte hdest.2

theorem run_of_unmapped {env : Environment}
    (hsel : env.selector = 0 ∨ compiled.length < env.selector) :
    run image.bytes env =
      ⟨.faulted (.badJump 7 (.ofNat (env.selector * layout.capacity))), [], 7⟩ :=
  Dispatch.run_of_not_isDestination (dispatcher_prefix_bytes h)
    (not_isDestination_of_unmapped h hsel)

/-- A call that selects no section ends at the dispatcher's jump, in its seventh step, and what
follows the selector in the call's data does not count. -/
theorem unmapped_refused :
    (∀ push0, run image.bytes ⟨[], push0⟩ = ⟨.faulted (.badJump 7 .zero), [], 7⟩) ∧
    ∀ c : UInt8, c = 0 ∨ compiled.length < c.toNat →
      ∃ destination : Word, destination.toNat = c.toNat * layout.capacity ∧
        ∀ rest push0, run image.bytes ⟨c :: rest, push0⟩ =
          ⟨.faulted (.badJump 7 destination), [], 7⟩ := by
  constructor
  · intro push0
    have hrun : run image.bytes ⟨[], push0⟩ = _ := run_of_unmapped h (.inl rfl)
    rw [show (⟨[], push0⟩ : Environment).selector = 0 from rfl, Nat.zero_mul] at hrun
    exact hrun
  · intro c hc
    have hsel (rest : List UInt8) (push0 : Bool) :
        (⟨c :: rest, push0⟩ : Environment).selector = c.toNat := rfl
    refine ⟨.ofNat (c.toNat * layout.capacity), ?_, fun rest push0 => ?_⟩
    · have hlt := Dispatch.selector_mul_capacity_lt layout ⟨[c], false⟩
      rw [hsel] at hlt
      exact Word.toNat_ofNat hlt
    · have hunmapped : (⟨c :: rest, push0⟩ : Environment).selector = 0 ∨
          compiled.length < (⟨c :: rest, push0⟩ : Environment).selector := by
        rw [hsel]
        exact hc.imp_left (congrArg UInt8.toNat)
      rw [run_of_unmapped h hunmapped, hsel]

end

theorem assemble_truncated : assemble ⟨5, by decide, by decide⟩ .legacy truncated =
    .ok (linked ⟨5, by decide, by decide⟩ .legacy truncated) :=
  assemble_eq_ok_iff.mpr ⟨by decide, by decide, rfl⟩

theorem unmapped_refused_truncated :
    ∃ destination : Word, destination.toNat = 96 ∧ ∀ rest push0,
      run (linked ⟨5, by decide, by decide⟩ .legacy truncated).bytes ⟨3 :: rest, push0⟩ =
        ⟨.faulted (.badJump 7 destination), [], 7⟩ := by
  exact (unmapped_refused assemble_truncated).2 3 (.inr (by decide))

/-- Such a call takes seven steps and not eight. -/
theorem not_forall_unmapped_eight :
    ¬ ∀ (layout : Layout) (variant : Variant) (compiled : List CompiledModule) (image : Image),
      assemble layout variant compiled = .ok image →
      ∀ env : Environment, env.selector = 0 ∨ compiled.length < env.selector →
        run image.bytes env =
          ⟨.faulted (.badJump 7 (.ofNat (env.selector * layout.capacity))), [], 8⟩ := by
  intro hall
  have hsel : (⟨[3], false⟩ : Environment).selector = 0 ∨
      truncated.length < (⟨[3], false⟩ : Environment).selector := .inr (by decide)
  have hrun := hall _ _ _ _ assemble_truncated ⟨[3], false⟩ hsel
  rw [run_of_unmapped assemble_truncated hsel] at hrun
  have hsteps := congrArg Outcome.steps hrun
  exact absurd hsteps (Nat.ne_of_lt (Nat.lt_succ_self 7))

end ImageLinker.Image
