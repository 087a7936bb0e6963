import ImageLinker.Proofs.Running

/-! Frames that run the same instructions at another place of their code, after other steps and
jumps. -/
namespace ImageLinker.Evm

/-- The same fault so many bytes further on. -/
def Fault.moved (base : Nat) : Fault → Fault
  | .invalidOpcode pc opcode => .invalidOpcode (pc + base) opcode
  | .badJump pc destination => .badJump (pc + base) destination
  | .stackUnderflow pc => .stackUnderflow (pc + base)
  | .stackOverflow pc => .stackOverflow (pc + base)
  | .memoryLimit pc => .memoryLimit (pc + base)
  | .stepLimit => .stepLimit

/-- Ends the same way so many bytes further on. -/
def Halt.moved (base : Nat) : Halt → Halt
  | .faulted f => .faulted (f.moved base)
  | .stopped => .stopped
  | .returned data => .returned data
  | .reverted data => .reverted data

/-- Where a piece of code lies, and what its frame has done before it. -/
structure Placement where
  base : Nat := 0
  jumps : Array Nat := #[]
  steps : Nat := 0

/-- The state of a frame that runs at a place what this one runs alone. -/
def Machine.placed (m : Machine) (p : Placement) : Machine :=
  { m with pc := m.pc + p.base, jumps := p.jumps ++ m.jumps, steps := m.steps + p.steps }

def Transition.placed (p : Placement) : Transition → Transition
  | .next m => .next (m.placed p)
  | .halt r m => .halt (r.moved p.base) (m.placed p)

@[simp] theorem Fault.moved_zero (f : Fault) : f.moved 0 = f := by cases f <;> rfl

@[simp] theorem Halt.moved_zero (r : Halt) : r.moved 0 = r := by
  cases r with
  | faulted f => exact congrArg Halt.faulted f.moved_zero
  | _ => rfl

@[simp] theorem Machine.placed_default (m : Machine) : m.placed {} = m := by
  simp [Machine.placed]

@[simp] theorem Transition.placed_default (t : Transition) : t.placed {} = t := by
  cases t with
  | next m => exact congrArg Transition.next m.placed_default
  | halt r m =>
    rw [placed, m.placed_default]
    exact congrArg (Transition.halt · m) r.moved_zero

theorem Transition.outcome_placed (t : Transition) (p : Placement) : (t.placed p).outcome =
    ⟨t.outcome.halt.moved p.base, p.jumps.toList ++ t.outcome.jumps, t.outcome.steps + p.steps⟩ := by
  cases t with
  | next m => simp [placed, outcome, Machine.placed, Halt.moved, Fault.moved]
  | halt r m => simp [placed, outcome, Machine.placed]

/-- What an instruction reads of its frame is the same in `g`, so many bytes further on. Jumps and
readings of the program counter tell two places apart. -/
structure Agrees (f g : Frame) (base pc : Nat) (opcode : UInt8) : Prop where
  calldata : g.calldata = f.calldata
  push0 : g.push0 = f.push0
  immediate : ∀ w, Operation.ofByte opcode = .push w →
    Word.ofImmediate (g.code.extract (pc + base + 1) (pc + base + 1 + w)).toList w =
      Word.ofImmediate (f.code.extract (pc + 1) (pc + 1 + w)).toList w
  code : Operation.ofByte opcode = .copy .code → g.code = f.code
  codeSize : Operation.ofByte opcode = .read .codeSize → g.code.size = f.code.size
  counter : Operation.ofByte opcode = .read .programCounter → base = 0
  jump : Operation.ofByte opcode = .jump ∨ Operation.ofByte opcode = .jumpIf →
    base = 0 ∧ ∀ offset, g.isDestination offset = f.isDestination offset

namespace Machine

variable {f g : Frame} {spawn : Option (List UInt8 → Outcome)} {m : Machine} {p : Placement}
  {opcode : UInt8}

@[simp] theorem placed_stack : (m.placed p).stack = m.stack := rfl

@[simp] theorem placed_memory : (m.placed p).memory = m.memory := rfl

/-- Memory can be replaced before or after a state is placed. -/
theorem placed_withMemory (memory : Memory) :
    { m.placed p with stack := m.stack, memory } = { m with memory }.placed p := rfl

theorem placed_fault (fault fault' : Fault) (h : fault' = fault.moved p.base) :
    (m.placed p).fault fault' = (m.fault fault).placed p := by
  rw [h]
  rfl

theorem placed_proceed (stack : List Word) (width : Nat) :
    (m.placed p).proceed stack width = (m.proceed stack width).placed p := by
  simp [proceed, placed, Transition.placed, Nat.add_right_comm _ p.base]

theorem placed_push (w : Word) (width : Nat) :
    (m.placed p).push w width = (m.push w width).placed p := by
  unfold push
  rw [placed_stack]
  split
  · exact placed_fault _ _ rfl
  · exact placed_proceed _ _

theorem placed_jumpTo {destination : Word} {stack : List Word} (hbase : p.base = 0)
    (hdest : ∀ offset, g.isDestination offset = f.isDestination offset) :
    (m.placed p).jumpTo g destination stack = (m.jumpTo f destination stack).placed p := by
  unfold jumpTo
  split
  · rw [hdest]
    split
    · simp [placed, Transition.placed, hbase]
    · exact placed_fault _ _ rfl
  · exact placed_fault _ _ rfl

theorem placed_create (code : List UInt8) (below : List Word) :
    (m.placed p).create spawn code below = (m.create spawn code below).placed p := by
  unfold create
  split
  · exact placed_proceed _ _
  · simp [proceed, placed, Transition.placed, Nat.add_right_comm _ p.base,
      Nat.add_right_comm _ p.steps]

theorem placed_reading {what : Reading} (hop : Operation.ofByte opcode = .read what)
    (h : Agrees f g p.base m.pc opcode) : (m.placed p).reading g what = m.reading f what := by
  cases what with
  | callDataSize => exact congrArg (fun data => Word.ofNat data.size) h.calldata
  | codeSize => exact congrArg Word.ofNat (h.codeSize hop)
  | programCounter => simp [reading, placed, h.counter hop]
  | callValue => rfl
  | returnDataSize => rfl
  | memorySize => rfl
  | gas => rfl

theorem loaded_of_agrees (h : Agrees f g p.base m.pc opcode) : g.loaded = f.loaded := by
  funext offset
  rw [Frame.loaded, Frame.loaded, h.calldata]

theorem copied_of_agrees {source : CopySource} (hop : Operation.ofByte opcode = .copy source)
    (h : Agrees f g p.base m.pc opcode) : g.copied source = f.copied source := by
  have hsource : g.source source = f.source source := by
    cases source with
    | callData => exact h.calldata
    | code => exact h.code hop
  funext offset size
  rw [Frame.copied, Frame.copied, hsource]

/-- An instruction does the same at both places. -/
theorem placed_perform (h : Agrees f g p.base m.pc opcode) :
    (m.placed p).perform g spawn opcode = (m.perform f spawn opcode).placed p := by
  unfold perform
  simp only [placed_stack, placed_memory]
  split
  case h_1 => rfl
  case h_2 | h_3 | h_7 | h_13 => exact placed_proceed _ _
  case h_4 hop =>
    rw [placed_reading hop h]
    exact placed_push _ _
  case h_5 =>
    rw [loaded_of_agrees h]
    exact placed_proceed _ _
  case h_6 hop _ =>
    rw [copied_of_agrees hop h]
    split
    · rw [placed_withMemory]
      exact placed_proceed _ _
    · exact placed_fault _ _ rfl
  case h_8 | h_9 | h_10 =>
    split
    · rw [placed_withMemory]
      exact placed_proceed _ _
    · exact placed_fault _ _ rfl
  case h_11 hop _ =>
    obtain ⟨hbase, hdest⟩ := h.jump (.inl hop)
    exact placed_jumpTo hbase hdest
  case h_12 hop _ =>
    obtain ⟨hbase, hdest⟩ := h.jump (.inr hop)
    split
    · exact placed_proceed _ _
    · exact placed_jumpTo hbase hdest
  case h_14 =>
    rw [h.push0]
    split
    · exact placed_push _ _
    · exact placed_fault _ _ rfl
  case h_15 hop =>
    have himm := h.immediate _ hop
    simp only [placed, himm]
    exact placed_push _ _
  case h_16 =>
    split
    · exact placed_push _ _
    · exact placed_fault _ _ rfl
  case h_17 =>
    split
    · exact placed_proceed _ _
    · exact placed_fault _ _ rfl
  case h_18 =>
    split
    · rw [placed_withMemory]
      exact placed_create _ _
    · exact placed_fault _ _ rfl
  case h_19 | h_20 =>
    split
    · rfl
    · exact placed_fault _ _ rfl
  case h_21 | h_22 => exact placed_fault _ _ rfl

theorem placed_count : { m.placed p with steps := (m.placed p).steps + 1 } =
    { m with steps := m.steps + 1 }.placed p := by
  simp [placed, Nat.add_right_comm _ p.steps]

theorem placed_step (hf : f.code[m.pc]? = some opcode) (hg : g.code[m.pc + p.base]? = some opcode)
    (hs : m.steps + p.steps < stepLimit) (h : Agrees f g p.base m.pc opcode) :
    (m.placed p).step g spawn = (m.step f spawn).placed p := by
  rw [step_of_opcode hg hs, step_of_opcode hf (by omega), placed_count]
  exact placed_perform h

/-- Frames whose single steps agree run alike for as many steps. -/
theorem placed_after {n : Nat}
    (hstep : ∀ k < n, ∀ m', m.after f spawn k = .next m' →
      (m'.placed p).step g spawn = (m'.step f spawn).placed p) :
    (m.placed p).after g spawn n = (m.after f spawn n).placed p := by
  induction n with
  | zero => rfl
  | succ n ih =>
    rw [after, after, ih fun k hk => hstep k (Nat.lt_succ_of_lt hk)]
    cases hn : m.after f spawn n with
    | next m' => exact hstep n (Nat.lt_succ_self n) m' hn
    | halt r m' => rfl

end Machine

end ImageLinker.Evm
