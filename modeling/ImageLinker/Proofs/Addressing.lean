import ImageLinker.Proofs.Decoding
import ImageLinker.Proofs.Memory

/-!
Memory is a tape, bytes without end that start as zeros and come into use by whole words. What each
operation does to the tape is stated for operands of any size, and a run leaves on it what its
operations have stored.
-/
namespace ImageLinker.Evm

/-- Bytes without end, and how many of them are in use. -/
@[ext]
structure Tape where
  cell : Nat → UInt8 := fun _ => 0
  size : Nat := 0

/-- A range that an operation addresses. -/
structure Access where
  offset : Nat
  size : Nat
  /-- The byte that goes to each place of the range. A reading stores none. -/
  stored : Option (Nat → UInt8) := none

/-- Only an empty range may pass the limit. -/
def Access.Fits (a : Access) : Prop := a.size = 0 ∨ a.offset + a.size ≤ 2 ^ 20

instance (a : Access) : Decidable a.Fits := inferInstanceAs (Decidable (_ ∨ _))

namespace Tape

def read (t : Tape) (a : Access) : List UInt8 :=
  (List.range a.size).map fun i => t.cell (a.offset + i)

theorem length_read (t : Tape) (a : Access) : (t.read a).length = a.size := by simp [read]

/-- Brings the words of a range into use and stores its bytes. A range that does not fit is left
alone. -/
def apply (t : Tape) (a : Access) : Tape :=
  if a.Fits then
    { cell := fun i =>
        if a.offset ≤ i ∧ i < a.offset + a.size then
          a.stored.elim (t.cell i) fun byte => byte (i - a.offset)
        else t.cell i
      size := if a.size = 0 then t.size else max t.size ((a.offset + a.size + 31) / 32 * 32) }
  else t

variable {t : Tape} {a : Access}

theorem apply_of_not_fits (h : ¬ a.Fits) : t.apply a = t := if_neg h

theorem size_apply (h : a.Fits) : (t.apply a).size =
    if a.size = 0 then t.size else max t.size ((a.offset + a.size + 31) / 32 * 32) := by
  rw [apply, if_pos h]

theorem cell_apply (h : a.Fits) (i : Nat) : (t.apply a).cell i =
    if a.offset ≤ i ∧ i < a.offset + a.size then
      a.stored.elim (t.cell i) fun byte => byte (i - a.offset)
    else t.cell i := by
  rw [apply, if_pos h]

/-- A range that fits is in use afterwards. -/
theorem le_size_apply (h : a.Fits) : a.size = 0 ∨ a.offset + a.size ≤ (t.apply a).size := by
  rw [size_apply h]
  split
  · next hzero => exact .inl hzero
  · right
    omega

def Whole (t : Tape) : Prop := 32 ∣ t.size ∧ t.size ≤ 2 ^ 20

theorem Whole.apply (h : t.Whole) (a : Access) : (t.apply a).Whole := by
  by_cases hfits : a.Fits
  · obtain ⟨hdvd, hle⟩ := h
    unfold Whole
    rw [size_apply hfits]
    split
    · exact ⟨hdvd, hle⟩
    · unfold Access.Fits at hfits
      omega
  · rwa [apply_of_not_fits hfits]

theorem Whole.foldl (h : t.Whole) (accesses : List Access) :
    (accesses.foldl Tape.apply t).Whole := by
  induction accesses generalizing t with
  | nil => exact h
  | cons a rest ih => exact ih (h.apply a)

end Tape

def Memory.tape (m : Memory) : Tape := ⟨m.cell, m.size⟩

theorem Memory.tape_empty : ({} : Memory).tape = {} := by
  simp [tape, funext_iff, cell, size]

/-- Memory that was grown for a range and has it at `start`, an empty one at its beginning. -/
structure Access.Held (a : Access) (m : Memory) (start : Nat) (memory : Memory) : Prop where
  fits : a.Fits
  start : start = if a.size = 0 then 0 else a.offset
  cell : ∀ i, memory.cell i = m.cell i
  size : memory.size =
    if a.size = 0 then m.size else max m.size ((a.offset + a.size + 31) / 32 * 32)

namespace Access.Held

variable {a : Access} {m memory : Memory} {start : Nat}

theorem of_reserve? {offset size : Word} (hoffset : a.offset = offset.toNat)
    (hsize : a.size = size.toNat) (h : m.reserve? offset size = some (start, memory)) :
    a.Held m start memory := by
  rw [Memory.reserve?_eq, ← hoffset, ← hsize] at h
  by_cases hzero : a.size = 0
  · rw [if_pos hzero] at h
    cases h
    exact ⟨.inl hzero, (if_pos hzero).symm, fun _ => rfl, (if_pos hzero).symm⟩
  · rw [if_neg hzero] at h
    split at h
    · next hfits =>
      cases h
      refine ⟨.inr hfits, (if_neg hzero).symm, Memory.cell_growTo m _, ?_⟩
      rw [Memory.size_growTo, if_neg hzero]
    · cases h

theorem bound (h : a.Held m start memory) : start + a.size ≤ memory.size := by
  rw [h.size, h.start]
  split <;> omega

theorem read (h : a.Held m start memory) : memory.read start a.size = m.tape.read a := by
  rw [Memory.read_eq_map_cell h.bound, h.start]
  split
  · next hzero => simp [Tape.read, hzero]
  · simp only [h.cell]
    rfl

theorem tape (h : a.Held m start memory) (hstored : a.stored = none) :
    memory.tape = m.tape.apply a := by
  apply Tape.ext
  · funext i
    rw [Tape.cell_apply h.fits, hstored, Option.elim_none, ite_self]
    exact h.cell i
  · rw [Tape.size_apply h.fits]
    exact h.size

theorem tape_write {byte : Nat → UInt8} (h : a.Held m start memory)
    (hstored : a.stored = some byte) :
    (memory.write start ((List.range a.size).map byte)).tape = m.tape.apply a := by
  have hlen : ((List.range a.size).map byte).length = a.size := by simp
  have hle : start + ((List.range a.size).map byte).length ≤ memory.size := by
    rw [hlen]
    exact h.bound
  apply Tape.ext
  · funext i
    rw [Tape.cell_apply h.fits, hstored, Option.elim_some]
    refine (Memory.cell_write hle i).trans ?_
    rw [hlen, h.cell, h.start]
    -- an empty range lies at the beginning of memory and not at its offset
    by_cases hzero : a.size = 0
    · rw [if_neg (by omega), if_neg (by omega)]
      rfl
    · rw [if_neg hzero]
      by_cases hi : a.offset ≤ i ∧ i < a.offset + a.size
      · rw [if_pos hi, if_pos hi, List.getElem?_map, List.getElem?_range (by omega)]
        rfl
      · rw [if_neg hi, if_neg hi]
        rfl
  · rw [Tape.size_apply h.fits]
    exact (Memory.size_write _ _ _).trans h.size

end Access.Held

theorem Access.not_fits_of_reserve? {a : Access} {m : Memory} {offset size : Word}
    (hoffset : a.offset = offset.toNat) (hsize : a.size = size.toNat)
    (h : m.reserve? offset size = none) : ¬ a.Fits := by
  rw [Memory.reserve?_eq, ← hoffset, ← hsize] at h
  rintro (hzero | hle)
  · rw [if_pos hzero] at h
    cases h
  · split at h
    · cases h
    · rw [if_pos (show a.offset + a.size ≤ Memory.limit from hle)] at h
      cases h

/-- The range that an operation addresses with the operands on a stack. -/
def Operation.access? (frame : Frame) : Operation → (stack : List Word) → Option Access
  | .mload, offset :: _ => some { offset := offset.toNat, size := 32 }
  | .mstore, offset :: value :: _ =>
    some { offset := offset.toNat, size := 32, stored := some value.byte }
  | .mstore8, offset :: value :: _ =>
    some { offset := offset.toNat, size := 1, stored := some fun _ => value.byte 31 }
  | .copy source, dest :: offset :: size :: _ =>
    some { offset := dest.toNat, size := size.toNat
           stored := some fun i => (frame.source source)[offset.toNat + i]?.getD 0 }
  | .create, _ :: offset :: size :: _ | .ret, offset :: size :: _
  | .revert, offset :: size :: _ => some { offset := offset.toNat, size := size.toNat }
  | _, _ => none

/-- How an operation on memory goes on in a state that holds its range, with the bytes `read`
there. -/
inductive GoesOn (m : Machine) (spawn : Option (List UInt8 → Outcome)) (read : List UInt8) :
    Operation → Transition → Prop
  | mload {offset w : Word} {below : List Word} (hs : m.stack = offset :: below)
      (hw : (List.range 32).map w.byte = read) : GoesOn m spawn read .mload (m.proceed (w :: below))
  | mstore {offset value : Word} {below : List Word} (hs : m.stack = offset :: value :: below) :
      GoesOn m spawn read .mstore (m.proceed below)
  | mstore8 {offset value : Word} {below : List Word} (hs : m.stack = offset :: value :: below) :
      GoesOn m spawn read .mstore8 (m.proceed below)
  | copy {source : CopySource} {dest offset size : Word} {below : List Word}
      (hs : m.stack = dest :: offset :: size :: below) :
      GoesOn m spawn read (.copy source) (m.proceed below)
  | create {value offset size : Word} {below : List Word}
      (hs : m.stack = value :: offset :: size :: below) :
      GoesOn m spawn read .create (m.create spawn read below)
  | ret {offset size : Word} {below : List Word} (hs : m.stack = offset :: size :: below) :
      GoesOn m spawn read .ret (.halt (.returned read) { m with stack := below })
  | revert {offset size : Word} {below : List Word} (hs : m.stack = offset :: size :: below) :
      GoesOn m spawn read .revert (.halt (.reverted read) { m with stack := below })

/-- What an operation makes of its range: it finds the bytes of the tape there and leaves the tape
with its own, inside memory; or it faults where it stands. -/
inductive Served (m : Machine) (spawn : Option (List UInt8 → Outcome)) (op : Operation)
    (a : Access) : Transition → Prop
  | granted {memory : Memory} {t : Transition} (hfits : a.Fits)
      (htape : memory.tape = m.memory.tape.apply a)
      (hbound : a.size = 0 ∨ a.offset + a.size ≤ memory.size)
      (hgoes : GoesOn { m with memory } spawn (m.memory.tape.read a) op t) : Served m spawn op a t
  | refused (hfits : ¬ a.Fits) : Served m spawn op a (m.fault (.memoryLimit m.pc))

def Transition.Keeps (memory : Memory) : Transition → Prop
  | .next m => m.memory = memory
  | .halt r m => m.memory = memory ∧ ∀ pc, r ≠ .faulted (.memoryLimit pc)

namespace Transition.Keeps

variable {m : Machine}

theorem memory {t : Transition} {memory : Memory} (h : t.Keeps memory) :
    t.state.memory = memory := by
  cases t with
  | next m => exact h
  | halt r m => exact h.1

theorem fault {f : Fault} (h : ∀ pc, f ≠ .memoryLimit pc) : (m.fault f).Keeps m.memory :=
  ⟨rfl, fun pc heq => h pc (Halt.faulted.inj heq)⟩

theorem push {w : Word} {width : Nat} : (m.push w width).Keeps m.memory := by
  unfold Machine.push
  split
  · exact fault nofun
  · rfl

theorem jumpTo {frame : Frame} {destination : Word} {stack : List Word} :
    (m.jumpTo frame destination stack).Keeps m.memory := by
  unfold Machine.jumpTo
  split
  · split
    · rfl
    · exact fault nofun
  · exact fault nofun

end Transition.Keeps

namespace Served

variable {m : Machine} {spawn : Option (List UInt8 → Outcome)} {op : Operation} {a : Access}
  {t : Transition}

/-- An operation that goes on wherever memory can be grown for its range is served. -/
theorem of_reserve? {offset size : Word}
    (hoffset : a.offset = offset.toNat) (hsize : a.size = size.toNat)
    (hnone : m.memory.reserve? offset size = none → t = m.fault (.memoryLimit m.pc))
    (hsome : ∀ start memory, m.memory.reserve? offset size = some (start, memory) →
      a.Held m.memory start memory → ∃ memory' : Memory, memory'.tape = m.memory.tape.apply a ∧
        GoesOn { m with memory := memory' } spawn (m.memory.tape.read a) op t) :
    Served m spawn op a t := by
  cases hres : m.memory.reserve? offset size with
  | none =>
    rw [hnone hres]
    exact .refused (Access.not_fits_of_reserve? hoffset hsize hres)
  | some reserved =>
    have held := Access.Held.of_reserve? hoffset hsize hres
    obtain ⟨memory', htape, hgoes⟩ := hsome _ _ hres held
    have hle := Tape.le_size_apply (t := m.memory.tape) held.fits
    rw [← htape] at hle
    exact .granted held.fits htape hle hgoes

/-- Memory is the tape after the range was applied, to no effect if it does not fit. -/
theorem tape (h : Served m spawn op a t) : t.state.memory.tape = m.memory.tape.apply a := by
  cases h with
  | granted _ htape _ hgoes =>
    rw [← htape]
    cases hgoes with
    | create _ =>
      unfold Machine.create
      split <;> rfl
    | _ => rfl
  | refused hfits => exact (Tape.apply_of_not_fits hfits).symm

theorem fault_iff (h : Served m spawn op a t) :
    (∃ pc m', t = .halt (.faulted (.memoryLimit pc)) m') ↔ ¬ a.Fits := by
  cases h with
  | granted hfits _ _ hgoes =>
    refine iff_of_false ?_ (not_not_intro hfits)
    rintro ⟨pc, m', rfl⟩
    -- an operation that goes on halts with its bytes or not at all
    generalize ht : Transition.halt _ _ = t at hgoes
    cases hgoes with
    | create _ =>
      unfold Machine.create at ht
      split at ht <;> cases ht
    | _ => cases ht
  | refused hfits => exact iff_of_true ⟨_, _, rfl⟩ hfits

end Served

namespace Machine

variable {frame : Frame} {spawn : Option (List UInt8 → Outcome)} {m : Machine} {opcode : UInt8}

/-- An operation that addresses no range keeps memory as it is. -/
theorem keeps_perform (h : (Operation.ofByte opcode).access? frame m.stack = none) :
    (m.perform frame spawn opcode).Keeps m.memory := by
  unfold perform
  split
  case h_1 => exact ⟨rfl, nofun⟩
  case h_2 | h_3 | h_5 | h_7 | h_13 => rfl
  case h_4 | h_15 => exact .push
  case h_6 hop hs | h_8 hop hs | h_9 hop hs | h_10 hop hs | h_18 hop hs | h_19 hop hs
  | h_20 hop hs =>
    rw [hop, hs] at h
    cases h
  case h_11 => exact .jumpTo
  case h_12 =>
    split
    · rfl
    · exact .jumpTo
  case h_14 | h_16 =>
    split
    · exact .push
    · exact .fault nofun
  case h_17 =>
    split
    · rfl
    · exact .fault nofun
  case h_21 | h_22 => exact .fault nofun

theorem served_perform {op : Operation} {a : Access}
    (hsize : ∀ source, (frame.source source).size < UInt64.size)
    (hop : Operation.ofByte opcode = op) (h : op.access? frame m.stack = some a) :
    Served m spawn op a (m.perform frame spawn opcode) := by
  have hword : 32 = (Word.ofNat 32).toNat := (Word.toNat_ofNat (by decide)).symm
  have hone : 1 = Word.one.toNat := rfl
  unfold Operation.access? at h
  split at h
  -- A word is read.
  case h_1 hs =>
    cases h
    refine .of_reserve? rfl hword (fun hnone => ?_) fun start memory hsome held => ?_
    · simp only [perform, hop, hs, hnone]
    · have hread := held.read
      have hlen : (memory.read start 32).length = 32 := by rw [hread, Tape.length_read]
      refine ⟨memory, held.tape rfl, ?_⟩
      simp only [perform, hop, hs, hsome]
      refine .mload rfl ?_
      rw [← Word.toBytes_eq_map_byte, Word.toBytes_ofBytes hlen, hread]
  -- Bytes are stored.
  case h_2 hs =>
    cases h
    refine .of_reserve? rfl hword (fun hnone => ?_) fun start memory hsome held => ?_
    · simp only [perform, hop, hs, hnone]
    · refine ⟨_, held.tape_write rfl, ?_⟩
      simp only [perform, hop, hs, hsome, Word.toBytes_eq_map_byte]
      exact .mstore rfl
  case h_3 hs =>
    cases h
    refine .of_reserve? rfl hone (fun hnone => ?_) fun start memory hsome held => ?_
    · simp only [perform, hop, hs, hnone]
    · refine ⟨_, held.tape_write rfl, ?_⟩
      simp only [perform, hop, hs, hsome, ← Word.byte_last]
      exact .mstore8 rfl
  case h_4 hs =>
    cases h
    refine .of_reserve? rfl rfl (fun hnone => ?_) fun start memory hsome held => ?_
    · simp only [perform, hop, hs, hnone]
    · refine ⟨_, held.tape_write rfl, ?_⟩
      simp only [perform, hop, hs, hsome, Frame.copied_eq (hsize _)]
      exact .copy rfl
  -- Bytes of any number are read.
  case h_5 hs | h_6 hs | h_7 hs =>
    cases h
    refine .of_reserve? rfl rfl (fun hnone => ?_) fun start memory hsome held => ?_
    · simp only [perform, hop, hs, hnone]
    · refine ⟨memory, held.tape rfl, ?_⟩
      simp only [perform, hop, hs, hsome, ← held.read]
      constructor
      rfl
  case h_8 => cases h

/-- The range that the next step addresses. -/
def access? (frame : Frame) (m : Machine) : Option Access :=
  if m.steps < stepLimit then
    (frame.code[m.pc]?).bind fun opcode => (Operation.ofByte opcode).access? frame m.stack
  else none

/-- A step applies its range to the tape, if it addresses one, and leaves the tape alone if not. -/
theorem tape_step (hsize : ∀ source, (frame.source source).size < UInt64.size) :
    (m.step frame spawn).state.memory.tape =
      (m.access? frame).elim m.memory.tape m.memory.tape.apply := by
  unfold access?
  by_cases hs : m.steps < stepLimit
  · rw [if_pos hs]
    cases hop : frame.code[m.pc]? with
    | none =>
      rw [step_of_end hop hs]
      rfl
    | some opcode =>
      rw [step_of_opcode hop hs, Option.bind_some]
      cases haccess : (Operation.ofByte opcode).access? frame m.stack with
      | none =>
        have hkeeps : (perform { m with steps := m.steps + 1 } frame spawn opcode).Keeps m.memory :=
          keeps_perform haccess
        rw [hkeeps.memory]
        rfl
      | some a =>
        exact (served_perform (m := { m with steps := m.steps + 1 }) hsize rfl haccess).tape
  · rw [if_neg hs, step_of_limit (Nat.le_of_not_lt hs)]
    rfl

end Machine

def Transition.access? (frame : Frame) : Transition → Option Access
  | .next m => m.access? frame
  | .halt _ _ => none

/-- The ranges that the first steps of a frame address, in order. -/
def accessesIn (code : List UInt8) (env : Environment) (room : Nat) : Nat → List Access
  | 0 => []
  | n + 1 => accessesIn code env room n ++
      ((frameAfter code env room n).access? (.ofCode code env)).toList

/-- Code and calldata as long as a program can hold: there is no byte at the last position. -/
theorem size_source_lt {code : List UInt8} {env : Environment} (hcode : code.length < 2 ^ 64)
    (hcalldata : env.calldata.length < 2 ^ 64) :
    ∀ source, ((Frame.ofCode code env).source source).size < UInt64.size
  | .callData => hcalldata
  | .code => hcode

theorem tape_frameAfter {code : List UInt8} {env : Environment} (hcode : code.length < 2 ^ 64)
    (hcalldata : env.calldata.length < 2 ^ 64) (room n : Nat) :
    (frameAfter code env room n).state.memory.tape =
      (accessesIn code env room n).foldl Tape.apply {} := by
  induction n with
  | zero => exact Memory.tape_empty
  | succ n ih =>
    rw [accessesIn, List.foldl_append, ← ih]
    change (Transition.andThen (frameAfter code env room n) _).state.memory.tape = _
    cases frameAfter code env room n with
    | next m =>
      refine (Machine.tape_step (m := m) (size_source_lt hcode hcalldata)).trans ?_
      change _ = (m.access? _).toList.foldl _ _
      cases m.access? (.ofCode code env) <;> rfl
    | halt r m => rfl

/-- Memory is a tape, in frames of any depth, for code and calldata without a byte at the last
position of 64 bits. After so many steps the tape holds what the ranges
addressed until then have stored on zeros, and whole words of it are in use, up to the limit. In any
state, whatever the operands, the operation at the program counter is served with the range
that it addresses, and the frame faults exactly if that is not empty and passes the limit. An
operation that addresses none keeps memory and does not fault so; one that reads calldata pushes the
32 bytes from its operand on, zeros past the end. -/
theorem memory_refines_tape (code : List UInt8) (env : Environment) (room : Nat)
    (hcode : code.length < 2 ^ 64) (hcalldata : env.calldata.length < 2 ^ 64) :
    (∀ n, (frameAfter code env room n).state.memory.tape =
        (accessesIn code env room n).foldl Tape.apply {} ∧
      32 ∣ (frameAfter code env room n).state.memory.size ∧
      (frameAfter code env room n).state.memory.size ≤ 2 ^ 20) ∧
    ∀ (m : Machine) (opcode : UInt8), m.steps < stepLimit → code[m.pc]? = some opcode →
      let t := m.step (.ofCode code env) (spawnIn env.push0 room)
      (∀ a, (Operation.ofByte opcode).access? (.ofCode code env) m.stack = some a →
        Served { m with steps := m.steps + 1 } (spawnIn env.push0 room) (Operation.ofByte opcode)
          a t ∧
        ((∃ pc m', t = .halt (.faulted (.memoryLimit pc)) m') ↔
          a.size ≠ 0 ∧ 2 ^ 20 < a.offset + a.size)) ∧
      ((Operation.ofByte opcode).access? (.ofCode code env) m.stack = none → t.Keeps m.memory) ∧
      ∀ offset below, Operation.ofByte opcode = .callDataLoad → m.stack = offset :: below →
        ∃ w : Word, (∀ i < 32, w.byte i = env.calldata[offset.toNat + i]?.getD 0) ∧
          t = .next { m with pc := m.pc + 1, stack := w :: below, steps := m.steps + 1 } := by
  have hsize := size_source_lt hcode hcalldata
  refine ⟨fun n => ?_, fun m opcode hs hop => ?_⟩
  · have htape := tape_frameAfter hcode hcalldata room n
    have hwhole : ((accessesIn code env room n).foldl Tape.apply {}).Whole :=
      Tape.Whole.foldl ⟨Nat.dvd_zero 32, Nat.zero_le _⟩ _
    rw [← htape] at hwhole
    exact ⟨htape, hwhole⟩
  · rw [← Frame.getElem?_code_ofCode code env] at hop
    dsimp only
    rw [Machine.step_of_opcode hop hs]
    refine ⟨fun a haccess => ?_, fun hnone => ?_, fun offset below hread hstack => ?_⟩
    · have hserved : Served { m with steps := m.steps + 1 } (spawnIn env.push0 room)
          (Operation.ofByte opcode) a _ := Machine.served_perform hsize rfl haccess
      refine ⟨hserved, hserved.fault_iff.trans ?_⟩
      rw [Access.Fits, not_or, Nat.not_le]
    · exact Machine.keeps_perform (m := { m with steps := m.steps + 1 }) hnone
    · refine ⟨_, fun i hi => ?_, Machine.perform_callDataLoad hread hstack⟩
      rw [Frame.loaded_eq (Nat.le_of_lt (hsize .callData)), Word.byte_ofBytes_map _ hi]
      exact congrArg (fun b : Option UInt8 => b.getD 0) List.getElem?_toArray

/-- A copy over the boundary of two words and past the end of its source, and a reading at an offset
whose lower 64 bits are zero. -/
theorem memory_refines_tape_boundary :
    let copied := ({ stack := [.ofNat 31, .ofNat 1, .ofNat 3] } : Machine).step
      (.ofCode [0x39, 0xaa] {}) none
    let read := ({ stack := [{ limb1 := 1 }] } : Machine).step (.ofCode [0x51] {}) none
    (copied.state.memory.size = 64 ∧ copied.state.memory.cell 31 = 0xaa ∧
      copied.state.memory.cell 32 = 0 ∧
      ¬ ∃ pc m', copied = .halt (.faulted (.memoryLimit pc)) m') ∧
    ∃ pc m', read = .halt (.faulted (.memoryLimit pc)) m' := by
  refine ⟨?_, ?_⟩
  · obtain ⟨haccess, _, _⟩ := (memory_refines_tape [0x39, 0xaa] {} 0 (by decide)
      (by decide)).2
      { stack := [.ofNat 31, .ofNat 1, .ofNat 3] } 0x39 (by decide) rfl
    obtain ⟨hserved, hfault⟩ := haccess _ rfl
    have htape := hserved.tape
    exact ⟨(congrArg Tape.size htape).trans (by decide),
      (congrFun (congrArg Tape.cell htape) 31).trans (by decide),
      (congrFun (congrArg Tape.cell htape) 32).trans (by decide), hfault.not.mpr (by decide)⟩
  · obtain ⟨haccess, _, _⟩ := (memory_refines_tape [0x51] {} 0 (by decide) (by decide)).2
      { stack := [{ limb1 := 1 }] } 0x51 (by decide) rfl
    obtain ⟨_, hfault⟩ := haccess _ rfl
    exact hfault.mpr (by decide)

end ImageLinker.Evm
