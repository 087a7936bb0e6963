import ImageLinker.Proofs.Relocation
import ImageLinker.Proofs.Routing

/-! A module that neither jumps nor reads its code runs in an image as it runs alone. -/
namespace ImageLinker

namespace Evm

def Operation.isPlaceBound : Operation → Bool
  | .jump | .jumpIf | .read .programCounter | .read .codeSize | .copy .code => true
  | _ => false

/-- They are `CODESIZE`, `CODECOPY`, `JUMP`, `JUMPI` and `PC`. -/
theorem Operation.isPlaceBound_ofByte (b : UInt8) :
    (Operation.ofByte b).isPlaceBound = true ↔
      b ∈ [0x38, Opcode.codeCopy, Opcode.jump, 0x57, 0x58] := by
  have hall : ∀ n : Fin 256, (Operation.ofByte (.ofBitVec ⟨n⟩)).isPlaceBound = true ↔
      UInt8.ofBitVec ⟨n⟩ ∈ [0x38, Opcode.codeCopy, Opcode.jump, 0x57, 0x58] := by
    decide +kernel
  exact hall b.toFin

/-- A code lies at an offset of another one, and zeros behind it hold the end of its walk. -/
def Embedded (code bytes : List UInt8) (base : Nat) : Prop :=
  ∃ pad rest, bytes.drop base = code ++ (List.replicate pad 0 ++ rest) ∧
    walkEnd code < code.length + pad

namespace Embedded

variable {code bytes : List UInt8} {base pc : Nat} {opcode : UInt8}
  (h : Embedded code bytes base)

include h

theorem getElem?_eq (hop : code[pc]? = some opcode) : bytes[pc + base]? = some opcode := by
  obtain ⟨pad, rest, hdrop, _⟩ := h
  have hlt := (List.getElem?_eq_some_iff.mp hop).1
  rw [Nat.add_comm, ← List.getElem?_drop, hdrop, List.getElem?_append_left hlt, hop]

theorem getElem?_walkEnd : bytes[walkEnd code + base]? = some 0 := by
  obtain ⟨pad, rest, hdrop, hend⟩ := h
  have hle := length_le_walkEnd code
  rw [Nat.add_comm, ← List.getElem?_drop, hdrop, List.getElem?_append_right hle,
    List.getElem?_append_left (by rw [List.length_replicate]; omega),
    List.getElem?_replicate_of_lt (by omega)]

/-- Data that the code lacks is zeros. -/
theorem exists_take_drop_eq (hr : Reaches code pc) (hop : code[pc]? = some opcode) :
    ∃ k, (bytes.drop (pc + base + 1)).take (Opcode.immediateLength opcode) =
      (code.drop (pc + 1)).take (Opcode.immediateLength opcode) ++ List.replicate k 0 := by
  obtain ⟨pad, rest, hdrop, hend⟩ := h
  have hlt := (List.getElem?_eq_some_iff.mp hop).1
  have hle := length_le_walkEnd code
  have hnext := hr.next_le hop (reaches_walkEnd code) (by omega)
  refine ⟨Opcode.immediateLength opcode - (code.length - (pc + 1)), ?_⟩
  rw [show pc + base + 1 = base + (pc + 1) by omega, ← List.drop_drop, hdrop,
    List.drop_append_of_le_length hlt, List.take_append, List.length_drop,
    List.take_append_of_le_length (by rw [List.length_replicate]; omega), List.take_replicate,
    Nat.min_eq_left (by omega)]

theorem ofImmediate_eq {w : Nat} (hw : w = Opcode.immediateLength opcode)
    (hr : Reaches code pc) (hop : code[pc]? = some opcode) :
    Word.ofImmediate (bytes.toArray.extract (pc + base + 1) (pc + base + 1 + w)).toList w =
      Word.ofImmediate (code.toArray.extract (pc + 1) (pc + 1 + w)).toList w := by
  obtain ⟨k, hk⟩ := h.exists_take_drop_eq hr hop
  simp only [Array.toList_extract, List.extract_eq_take_drop, Nat.add_sub_cancel_left]
  rw [hw, hk, Word.ofImmediate_append_zeros]

theorem agrees (hr : Reaches code pc) (hop : code[pc]? = some opcode)
    (hfree : (Operation.ofByte opcode).isPlaceBound = false) (env : Environment) :
    Agrees (.ofCode code env) (.ofCode bytes env) base pc opcode where
  calldata := rfl
  push0 := rfl
  immediate w hw := by
    have hwidth := Operation.width_ofByte opcode
    rw [hw] at hwidth
    exact h.ofImmediate_eq hwidth hr hop
  code hw := by simp [hw, Operation.isPlaceBound] at hfree
  codeSize hw := by simp [hw, Operation.isPlaceBound] at hfree
  counter hw := by simp [hw, Operation.isPlaceBound] at hfree
  jump hw := by rcases hw with hw | hw <;> simp [hw, Operation.isPlaceBound] at hfree

variable {spawn : Option (List UInt8 → Outcome)} {m : Machine} {p : Placement}

/-- One step of the embedded code is the step that it does alone, also behind its last byte. -/
theorem placed_step (hbase : p.base = base) (hr : Reaches code m.pc)
    (hfree : ∀ opcode, code[m.pc]? = some opcode →
      (Operation.ofByte opcode).isPlaceBound = false)
    (hs : m.steps + p.steps < stepLimit) (env : Environment) :
    (m.placed p).step (.ofCode bytes env) spawn =
      (m.step (.ofCode code env) spawn).placed p := by
  subst hbase
  have hf := Frame.getElem?_code_ofCode code env m.pc
  have hg := Frame.getElem?_code_ofCode bytes env (m.pc + p.base)
  cases hop : code[m.pc]? with
  | some opcode =>
    rw [hop] at hf
    rw [h.getElem?_eq hop] at hg
    exact Machine.placed_step hf hg hs (h.agrees hr hop (hfree opcode hop) env)
  | none =>
    -- Alone the code stops at its end; in its place it meets the zero there, which stops as well.
    have hend : walkEnd code = m.pc := walkEnd_eq_of_reaches hr (List.getElem?_eq_none_iff.mp hop)
    rw [hop] at hf
    rw [← hend, h.getElem?_walkEnd, hend] at hg
    rw [Machine.step_of_end hf (by omega), Machine.step_of_opcode hg hs, Machine.placed_count,
      Machine.perform_stop rfl]
    rfl

end Embedded

/-- As long as its steps last, the embedded code runs as it does alone. -/
theorem Embedded.placed_after {code bytes : List UInt8} {p : Placement} {env : Environment}
    (h : Embedded code bytes p.base)
    (hfree : ∀ i ∈ instructions code, (Operation.ofByte i.opcode).isPlaceBound = false)
    (hsteps : (run code env).steps + p.steps ≤ stepLimit) :
    (({} : Machine).placed p).after (.ofCode bytes env) env.spawn (stepLimit + 1) =
      (({} : Machine).after (.ofCode code env) env.spawn (stepLimit + 1)).placed p := by
  obtain ⟨r, last, hhalt⟩ : ∃ r last,
      ({} : Machine).after (.ofCode code env) env.spawn (stepLimit + 1) = .halt r last :=
    Machine.after_halts (by decide)
  rw [run_eq_outcome_after, hhalt] at hsteps
  refine Machine.placed_after fun k _ m hm => ?_
  have hr : Reaches code m.pc := Machine.reaches_of_after_next .start hm
  have hlt : m.steps < last.steps := Machine.steps_lt_of_after_halt hm hhalt
  have hroom : m.steps + p.steps < stepLimit :=
    Nat.lt_of_lt_of_le (Nat.add_lt_add_right hlt p.steps) hsteps
  refine h.placed_step rfl hr (fun opcode hop => ?_) hroom env
  obtain ⟨i, hi, _, rfl⟩ := hr.exists_instruction hop
  exact hfree i hi

/-- Code without jumps takes none. -/
theorem Machine.jumps_after {code : List UInt8} {env : Environment}
    {spawn : Option (List UInt8 → Outcome)} {m : Machine} (hm : Reaches code m.pc)
    (hfree : ∀ i ∈ instructions code, (Operation.ofByte i.opcode).isPlaceBound = false) (n : Nat) :
    (m.after (.ofCode code env) spawn n).outcome.jumps = m.jumps.toList := by
  induction n with
  | zero => rfl
  | succ n ih =>
    rcases jumps_after_succ (.ofCode code env) spawn m n with
      hsame | ⟨m₀, opcode, _, hn, hop, hjump, _, _⟩
    · rw [hsame]
      exact ih
    · rw [Frame.getElem?_code_ofCode] at hop
      obtain ⟨i, hi, _, rfl⟩ := (reaches_of_after_next hm hn).exists_instruction hop
      have hbound := hfree i hi
      rcases hjump with hjump | hjump <;> simp [hjump, Operation.isPlaceBound] at hbound

end Evm

open Evm

/-- Seven steps and one jump behind the call, the dispatcher leaves an embedded code to run as it
does alone. -/
theorem Dispatch.run_of_embedded {layout : Layout} {code bytes : List UInt8} {env : Environment}
    (hbytes : dispatcher layout <+: bytes)
    (hdest : (Frame.ofCode bytes env).isDestination (env.selector * layout.capacity) = true)
    (h : Embedded code bytes (env.selector * layout.capacity))
    (hfree : ∀ i ∈ instructions code, (Operation.ofByte i.opcode).isPlaceBound = false)
    (hsteps : (run code env).steps + 7 ≤ stepLimit) :
    run bytes env =
      ⟨(run code env).halt.moved (env.selector * layout.capacity),
        [env.selector * layout.capacity], (run code env).steps + 7⟩ := by
  let p : Placement := ⟨env.selector * layout.capacity, #[env.selector * layout.capacity], 7⟩
  have hentry : entry layout env = ({} : Machine).placed p := by simp [entry, Machine.placed, p]
  have hlimit : stepLimit ≤ (entry layout env).steps + (stepLimit - 7) :=
    (by decide : stepLimit ≤ 7 + (stepLimit - 7))
  have hjumps : (run code env).jumps = [] := by
    rw [run_eq_outcome_after]
    exact Machine.jumps_after .start hfree _
  calc run bytes env
      = ((entry layout env).after (.ofCode bytes env) env.spawn (stepLimit - 6)).outcome :=
        run_of_isDestination hbytes hdest
    _ = ((({} : Machine).placed p).after (.ofCode bytes env) env.spawn
          (stepLimit + 1)).outcome := by
        rw [← hentry]
        exact congrArg Transition.outcome (Machine.after_eq_of_limit hlimit (by decide)).symm
    _ = ((({} : Machine).after (.ofCode code env) env.spawn (stepLimit + 1)).placed p).outcome := by
        rw [h.placed_after hfree hsteps]
    _ = ⟨(run code env).halt.moved p.base, p.jumps.toList ++ (run code env).jumps,
          (run code env).steps + p.steps⟩ := by
        rw [Transition.outcome_placed, run_eq_outcome_after]
    _ = _ := by
        rw [hjumps]
        rfl

namespace Image

variable {layout : Layout} {variant : Variant} {compiled : List CompiledModule} {image : Image}

theorem embedded_section (h : assemble layout variant compiled = .ok image) {k : Nat}
    (hk : k < compiled.length) (hend : walkEnd compiled[k].code < layout.capacity) :
    Embedded compiled[k].code image.bytes ((k + 1) * layout.capacity) := by
  refine ⟨layout.capacity - compiled[k].code.length,
    image.bytes.drop ((k + 1 + 1) * layout.capacity), ?_, ?_⟩
  · rw [drop_bytes h (getElem?_sections_succ h hk), CompiledModule.slot, Section.filled,
      List.append_assoc]
  · have hfits := (linkable_of_assemble h hk).fits
    omega

/-- A section that the walk gets to runs as its module does alone. -/
theorem run_of_reaches (h : assemble layout variant compiled = .ok image) {k : Nat}
    (hk : k < compiled.length) (hjd : compiled[k].code.head? = some Opcode.jumpDest)
    (hr : Reaches image.bytes ((k + 1) * layout.capacity))
    (hend : walkEnd compiled[k].code < layout.capacity)
    (hfree : ∀ i ∈ instructions compiled[k].code,
      (Operation.ofByte i.opcode).isPlaceBound = false)
    {env : Environment} (hsel : env.selector = k + 1)
    (hsteps : (run compiled[k].code env).steps + 7 ≤ stepLimit) :
    run image.bytes env =
      ⟨(run compiled[k].code env).halt.moved ((k + 1) * layout.capacity),
        [(k + 1) * layout.capacity], (run compiled[k].code env).steps + 7⟩ := by
  have hdest := (isDestination_section h hk hjd env).mpr hr
  have hemb := embedded_section h hk hend
  rw [← hsel] at hdest hemb
  rw [← hsel]
  exact Dispatch.run_of_embedded (dispatcher_prefix_bytes h) hdest hemb hfree hsteps

/-- Behind sections that do not spill, a module that neither jumps nor reads its code does in its
section what it does alone. -/
theorem run_section (h : assemble layout variant compiled = .ok image)
    (hjd : ∀ m ∈ compiled, m.code.head? = some Opcode.jumpDest) {k : Nat}
    (hk : k < compiled.length) (hs : ∀ j, 1 ≤ j → j ≤ k → ¬ image.Spills j)
    (hend : walkEnd compiled[k].code < layout.capacity)
    (hfree : ∀ i ∈ instructions compiled[k].code,
      (Operation.ofByte i.opcode).isPlaceBound = false)
    {env : Environment} (hsel : env.selector = k + 1)
    (hsteps : (run compiled[k].code env).steps + 7 ≤ stepLimit) :
    run image.bytes env =
      ⟨(run compiled[k].code env).halt.moved ((k + 1) * layout.capacity),
        [(k + 1) * layout.capacity], (run compiled[k].code env).steps + 7⟩ := by
  have hcode : compiled[k].code.head? = some Opcode.jumpDest := hjd _ (List.getElem_mem hk)
  have hr : Reaches image.bytes ((k + 1) * layout.capacity) := reaches_section h hk hs
  exact run_of_reaches h hk hcode hr hend hfree hsel hsteps

def faulting : List CompiledModule :=
  [⟨⟨"a.yul", 1⟩, [0x5b, 0x00], []⟩, ⟨⟨"b.yul", 2⟩, [0x5b, 0xfe], []⟩]

theorem assemble_faulting :
    assemble .standard .legacy faulting = .ok (linked .standard .legacy faulting) :=
  assemble_eq_ok_iff.mpr ⟨by decide, by decide, rfl⟩

theorem walkEnd_faulting_lt : ∀ m ∈ faulting, walkEnd m.code < Layout.standard.capacity := by
  have hstop : walkEnd [0x5b, 0x00] = 2 := by cbv
  have hfault : walkEnd [0x5b, 0xfe] = 2 := by cbv
  simp only [faulting, List.forall_mem_cons, hstop, hfault]
  decide

theorem not_spills_faulting :
    ∀ j, 1 ≤ j → j ≤ 1 → ¬ (linked .standard .legacy faulting).Spills j := by
  intro j hpos hle
  obtain rfl : j = 1 := Nat.le_antisymm hle hpos
  rw [spills_succ_iff assemble_faulting (by decide)]
  exact Nat.not_lt_of_gt (walkEnd_faulting_lt _ (List.getElem_mem _))

theorem isPlaceBound_faulting : ∀ i ∈ instructions faulting[1].code,
    (Operation.ofByte i.opcode).isPlaceBound = false := by
  have hcode : instructions faulting[1].code = [⟨0, 0x5b, []⟩, ⟨1, 0xfe, []⟩] := by cbv
  rw [hcode]
  decide

theorem run_section_faulting : run (linked .standard .legacy faulting).bytes ⟨[2], false⟩ =
    ⟨.faulted (.invalidOpcode 129 0xfe), [128], 9⟩ := by
  have hsel : (⟨[2], false⟩ : Environment).selector = 2 := rfl
  have hend := walkEnd_faulting_lt faulting[1] (List.getElem_mem _)
  exact run_section assemble_faulting (by decide) (by decide) not_spills_faulting hend
    isPlaceBound_faulting hsel (by decide)

/-- The dispatcher takes seven steps and not eight. -/
theorem not_forall_run_section_eight :
    ¬ ∀ (layout : Layout) (variant : Variant) (compiled : List CompiledModule) (image : Image),
      assemble layout variant compiled = .ok image →
      (∀ m ∈ compiled, m.code.head? = some Opcode.jumpDest) →
      ∀ (k : Nat) (hk : k < compiled.length), (∀ j, 1 ≤ j → j ≤ k → ¬ image.Spills j) →
        walkEnd compiled[k].code < layout.capacity →
        (∀ i ∈ instructions compiled[k].code, (Operation.ofByte i.opcode).isPlaceBound = false) →
        ∀ env : Environment, env.selector = k + 1 → (run compiled[k].code env).steps ≤ 99992 →
          run image.bytes env =
            ⟨(run compiled[k].code env).halt.moved ((k + 1) * layout.capacity),
              [(k + 1) * layout.capacity], (run compiled[k].code env).steps + 8⟩ := by
  intro hall
  have hsel : (⟨[2], false⟩ : Environment).selector = 2 := rfl
  have hend := walkEnd_faulting_lt faulting[1] (List.getElem_mem _)
  have hmore := hall .standard .legacy faulting _ assemble_faulting (by decide) 1 (by decide)
    not_spills_faulting hend isPlaceBound_faulting _ hsel (by decide)
  have hr := reaches_section assemble_faulting (k := 1) (by decide) not_spills_faulting
  have hseven := run_of_reaches assemble_faulting (k := 1) (by decide) (by decide) hr hend
    isPlaceBound_faulting hsel (by decide)
  rw [hseven] at hmore
  have hsteps := congrArg Outcome.steps hmore
  exact absurd hsteps (Nat.ne_of_lt (Nat.lt_succ_self _))

end Image

end ImageLinker
