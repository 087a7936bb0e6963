import ImageLinker.Proofs.Memory
import ImageLinker.Proofs.Running

/-! Single steps of a code whose first bytes are known, whatever follows them. -/
namespace ImageLinker.Evm

variable {program code : List UInt8} {env : Environment}

theorem getElem?_code_of_begins (hcode : program <+: code) {k : Nat} {opcode : UInt8}
    (hop : program[k]? = some opcode) : (Frame.ofCode code env).code[k]? = some opcode := by
  obtain ⟨rest, rfl⟩ := hcode
  have hk := (List.getElem?_eq_some_iff.mp hop).1
  rw [Frame.getElem?_code_ofCode, List.getElem?_append_left hk, hop]

/-- The data of an instruction, as far as it lies in the known bytes. -/
theorem extract_code_of_begins (hcode : program <+: code) {start width : Nat}
    (h : start + width ≤ program.length) :
    ((Frame.ofCode code env).code.extract start (start + width)).toList =
      (program.drop start).take width := by
  obtain ⟨rest, rfl⟩ := hcode
  simp only [Frame.ofCode, Array.toList_extract, List.extract_eq_take_drop,
    Nat.add_sub_cancel_left]
  rw [List.drop_append_of_le_length (by omega),
    List.take_append_of_le_length (by rw [List.length_drop]; omega)]

namespace Machine

theorem after_zero (frame : Frame) (spawn : Option (List UInt8 → Outcome)) (m : Machine) :
    m.after frame spawn 0 = .next m := rfl

variable {spawn : Option (List UInt8 → Outcome)} {m₀ m : Machine} {k : Nat} {opcode : UInt8}
  (hcode : program <+: code) (h : m₀.after (.ofCode code env) spawn k = .next m)
  (hop : program[m.pc]? = some opcode)

include hcode h hop

theorem after_perform (hs : m.steps < stepLimit) : m₀.after (.ofCode code env) spawn (k + 1) =
    { m with steps := m.steps + 1 }.perform (.ofCode code env) spawn opcode :=
  after_succ_of_opcode h (getElem?_code_of_begins hcode hop) hs

theorem after_push {width : Nat} (hread : Operation.ofByte opcode = .push width)
    (hdata : m.pc + 1 + width ≤ program.length := by exact Nat.le_of_ble_eq_true rfl)
    (hroom : m.stack.length < stackLimit := by exact Nat.le_of_ble_eq_true rfl)
    (hs : m.steps < stepLimit := by exact Nat.le_of_ble_eq_true rfl) :
    m₀.after (.ofCode code env) spawn (k + 1) = .next { m with
      pc := m.pc + 1 + width
      stack := .ofImmediate ((program.drop (m.pc + 1)).take width) width :: m.stack
      steps := m.steps + 1 } := by
  rw [after_perform hcode h hop hs, perform_push hread,
    push_of_lt (m := { m with steps := m.steps + 1 }) hroom, extract_code_of_begins hcode hdata]
  rfl

/-- A push of one byte leaves the number that the byte is. -/
theorem after_push_one {b : UInt8} (hread : Operation.ofByte opcode = .push 1)
    (hdata : program[m.pc + 1]? = some b)
    (hroom : m.stack.length < stackLimit := by exact Nat.le_of_ble_eq_true rfl)
    (hs : m.steps < stepLimit := by exact Nat.le_of_ble_eq_true rfl) :
    m₀.after (.ofCode code env) spawn (k + 1) = .next { m with
      pc := m.pc + 2, stack := .ofNat b.toNat :: m.stack, steps := m.steps + 1 } := by
  obtain ⟨hlt, hb⟩ := List.getElem?_eq_some_iff.mp hdata
  have htake : (program.drop (m.pc + 1)).take 1 = [b] := by
    rw [List.drop_eq_getElem_cons hlt, hb]
    rfl
  rw [after_push hcode h hop hread hlt hroom hs, htake, Word.ofImmediate_singleton]

theorem after_read {what : Reading} (hread : Operation.ofByte opcode = .read what)
    (hroom : m.stack.length < stackLimit := by exact Nat.le_of_ble_eq_true rfl)
    (hs : m.steps < stepLimit := by exact Nat.le_of_ble_eq_true rfl) :
    m₀.after (.ofCode code env) spawn (k + 1) = .next { m with
      pc := m.pc + 1
      stack := { m with steps := m.steps + 1 }.reading (.ofCode code env) what :: m.stack
      steps := m.steps + 1 } := by
  rw [after_perform hcode h hop hs, perform_read hread,
    push_of_lt (m := { m with steps := m.steps + 1 }) hroom]
  rfl

theorem after_binary {op : BinaryOp} {a b : Word} {below : List Word}
    (hread : Operation.ofByte opcode = .binary op) (hstack : m.stack = a :: b :: below)
    (hs : m.steps < stepLimit := by exact Nat.le_of_ble_eq_true rfl) :
    m₀.after (.ofCode code env) spawn (k + 1) = .next { m with
      pc := m.pc + 1, stack := op.eval a b :: below, steps := m.steps + 1 } := by
  rw [after_perform hcode h hop hs,
    perform_binary (m := { m with steps := m.steps + 1 }) hread hstack]
  rfl

theorem after_dup {n : Nat} {w : Word} (hread : Operation.ofByte opcode = .dup n)
    (hstack : m.stack[n - 1]? = some w)
    (hroom : m.stack.length < stackLimit := by exact Nat.le_of_ble_eq_true rfl)
    (hs : m.steps < stepLimit := by exact Nat.le_of_ble_eq_true rfl) :
    m₀.after (.ofCode code env) spawn (k + 1) = .next { m with
      pc := m.pc + 1, stack := w :: m.stack, steps := m.steps + 1 } := by
  rw [after_perform hcode h hop hs]
  unfold perform
  simp only [hread, hstack]
  rw [push_of_lt (m := { m with steps := m.steps + 1 }) hroom]
  rfl

theorem after_swap_one {a b : Word} {below : List Word}
    (hread : Operation.ofByte opcode = .swap 1) (hstack : m.stack = a :: b :: below)
    (hs : m.steps < stepLimit := by exact Nat.le_of_ble_eq_true rfl) :
    m₀.after (.ofCode code env) spawn (k + 1) = .next { m with
      pc := m.pc + 1, stack := b :: a :: below, steps := m.steps + 1 } := by
  rw [after_perform hcode h hop hs]
  unfold perform
  simp only [hread, hstack]
  rfl

theorem after_pop {a : Word} {below : List Word} (hread : Operation.ofByte opcode = .pop)
    (hstack : m.stack = a :: below)
    (hs : m.steps < stepLimit := by exact Nat.le_of_ble_eq_true rfl) :
    m₀.after (.ofCode code env) spawn (k + 1) = .next { m with
      pc := m.pc + 1, stack := below, steps := m.steps + 1 } := by
  rw [after_perform hcode h hop hs]
  unfold perform
  simp only [hread, hstack]
  rfl

theorem after_jumpDest (hread : Operation.ofByte opcode = .jumpDest)
    (hs : m.steps < stepLimit := by exact Nat.le_of_ble_eq_true rfl) :
    m₀.after (.ofCode code env) spawn (k + 1) = .next { m with
      pc := m.pc + 1, steps := m.steps + 1 } := by
  rw [after_perform hcode h hop hs]
  unfold perform
  simp only [hread]
  rfl

theorem after_mstore {offset value : Word} {below : List Word} {start : Nat} {memory : Memory}
    (hread : Operation.ofByte opcode = .mstore) (hstack : m.stack = offset :: value :: below)
    (hrange : m.memory.reserve? offset (.ofNat 32) = some (start, memory))
    (hs : m.steps < stepLimit := by exact Nat.le_of_ble_eq_true rfl) :
    m₀.after (.ofCode code env) spawn (k + 1) = .next { m with
      pc := m.pc + 1, stack := below, memory := memory.write start value.toBytes
      steps := m.steps + 1 } := by
  rw [after_perform hcode h hop hs]
  unfold perform
  simp only [hread, hstack, hrange]
  rfl

theorem after_copy {source : CopySource} {dest offset size : Word} {below : List Word}
    {start : Nat} {memory : Memory} (hread : Operation.ofByte opcode = .copy source)
    (hstack : m.stack = dest :: offset :: size :: below)
    (hrange : m.memory.reserve? dest size = some (start, memory))
    (hs : m.steps < stepLimit := by exact Nat.le_of_ble_eq_true rfl) :
    m₀.after (.ofCode code env) spawn (k + 1) = .next { m with
      pc := m.pc + 1, stack := below
      memory := memory.write start ((Frame.ofCode code env).copied source offset size)
      steps := m.steps + 1 } := by
  rw [after_perform hcode h hop hs]
  unfold perform
  simp only [hread, hstack, hrange]
  rfl

/-- A creation adds the steps of the frame that it makes. -/
theorem after_create {run : List UInt8 → Outcome} {value offset size : Word} {below : List Word}
    {start : Nat} {memory : Memory} (hspawn : spawn = some run)
    (hread : Operation.ofByte opcode = .create)
    (hstack : m.stack = value :: offset :: size :: below)
    (hrange : m.memory.reserve? offset size = some (start, memory))
    (hs : m.steps < stepLimit := by exact Nat.le_of_ble_eq_true rfl) :
    m₀.after (.ofCode code env) spawn (k + 1) =
      let outcome := run (memory.read start size.toNat)
      .next { m with
        pc := m.pc + 1
        stack := (if outcome.halt.isSuccess then createdAddress else .zero) :: below
        memory := memory, returnDataSize := outcome.halt.revertedSize
        steps := m.steps + 1 + outcome.steps } := by
  rw [after_perform hcode h hop hs]
  unfold perform
  simp only [hread, hstack, hrange, create, hspawn]
  rfl

/-- A conditional jump is taken when its condition is not zero. -/
theorem after_jumpIf {destination condition : Word} {below : List Word} {offset : Nat}
    (hread : Operation.ofByte opcode = .jumpIf)
    (hstack : m.stack = destination :: condition :: below)
    (hindex : destination.toIndex? = some offset)
    (hdest : (Frame.ofCode code env).isDestination offset = true)
    (hs : m.steps < stepLimit := by exact Nat.le_of_ble_eq_true rfl) :
    m₀.after (.ofCode code env) spawn (k + 1) = .next (
      if condition.isZero then
        { m with pc := m.pc + 1, stack := below, steps := m.steps + 1 }
      else
        { m with pc := offset, stack := below, jumps := m.jumps.push offset
                 steps := m.steps + 1 }) := by
  rw [after_perform hcode h hop hs]
  unfold perform
  simp only [hread, hstack, jumpTo, hindex, hdest]
  split <;> rfl

theorem after_ret {offset size : Word} {below : List Word} {start : Nat} {memory : Memory}
    (hread : Operation.ofByte opcode = .ret) (hstack : m.stack = offset :: size :: below)
    (hrange : m.memory.reserve? offset size = some (start, memory))
    (hs : m.steps < stepLimit := by exact Nat.le_of_ble_eq_true rfl) :
    m₀.after (.ofCode code env) spawn (k + 1) =
      .halt (.returned (memory.read start size.toNat))
        { m with stack := below, memory := memory, steps := m.steps + 1 } := by
  rw [after_perform hcode h hop hs]
  unfold perform
  simp only [hread, hstack, hrange]

end Machine

end ImageLinker.Evm
