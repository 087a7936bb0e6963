import ImageLinker.Proofs.Counting

/-!
Code that a target without `PUSH0` runs to another end than the missing opcode runs the same where
the opcode exists: besides the opcode itself only created frames can tell the two targets apart.
-/
namespace ImageLinker.Evm

theorem Operation.eq_push0_of_pushZero {opcode : UInt8}
    (h : Operation.ofByte opcode = .pushZero) : opcode = Opcode.push0 := by
  have hall : ∀ n : Fin 256, Operation.ofByte (.ofBitVec ⟨n⟩) = .pushZero →
      UInt8.ofBitVec ⟨n⟩ = Opcode.push0 := by
    decide +kernel
  exact hall opcode.toFin h

namespace Machine

variable {frame : Frame} {spawn spawn' : Option (List UInt8 → Outcome)} {m : Machine}

theorem perform_withPush0 {opcode : UInt8} (h : Operation.ofByte opcode ≠ .pushZero)
    (push0 : Bool) :
    m.perform { frame with push0 } spawn opcode = m.perform frame spawn opcode := by
  unfold perform
  split
  case h_14 hop => exact absurd hop h
  all_goals rfl

/-- A step that would create a frame goes on from a creation. -/
theorem exists_next_of_creates? {code : List UInt8} (h : m.creates? frame = some code) :
    ∃ m' opcode, frame.code[m.pc]? = some opcode ∧ Operation.ofByte opcode = .create ∧
      m.step frame spawn = .next m' := by
  obtain ⟨m₁, below, hs, _, hcreate⟩ := step_of_creates?_eq_some h
  rw [creates?, if_pos hs] at h
  obtain ⟨opcode, hop, hrequest⟩ := Option.bind_eq_some_iff.mp h
  have hread : Operation.ofByte opcode = .create := by
    unfold request? at hrequest
    split at hrequest
    case h_1 hread _ => exact hread
    case h_2 => cases hrequest
  rw [hcreate spawn]
  unfold create
  split
  · exact ⟨_, opcode, hop, hread, rfl⟩
  · exact ⟨_, opcode, hop, hread, rfl⟩

/-- A step that neither creates a frame nor misses the opcode is the same with it. -/
theorem step_withPush0 {code calldata : List UInt8}
    (hcreate : m.creates? (.ofCode code ⟨calldata, false⟩) = none)
    (hfault : ∀ m', m.step (.ofCode code ⟨calldata, false⟩) spawn ≠
      .halt (.faulted (.invalidOpcode m.pc Opcode.push0)) m') :
    m.step (.ofCode code ⟨calldata, true⟩) spawn' =
      m.step (.ofCode code ⟨calldata, false⟩) spawn := by
  have hcreate' : m.creates? (.ofCode code ⟨calldata, true⟩) = none := hcreate
  rw [step_of_creates?_eq_none hcreate] at hfault
  rw [step_of_creates?_eq_none hcreate, step_of_creates?_eq_none hcreate']
  have hcode := Frame.getElem?_code_ofCode code ⟨calldata, false⟩ m.pc
  have hcode' := Frame.getElem?_code_ofCode code ⟨calldata, true⟩ m.pc
  by_cases hs : m.steps < stepLimit
  · cases hop : code[m.pc]? with
    | none =>
      rw [hop] at hcode hcode'
      rw [step_of_end hcode hs, step_of_end hcode' hs]
    | some opcode =>
      rw [hop] at hcode hcode'
      rw [step_of_opcode hcode hs] at hfault
      rw [step_of_opcode hcode hs, step_of_opcode hcode' hs]
      change perform _ { Frame.ofCode code ⟨calldata, false⟩ with push0 := true } none opcode = _
      refine perform_withPush0 (fun hzero => ?_) true
      obtain rfl := Operation.eq_push0_of_pushZero hzero
      rw [perform_pushZero hzero] at hfault
      exact hfault _ rfl
  · have hs := Nat.le_of_not_lt hs
    rw [step_of_limit hs, step_of_limit hs]

theorem halt_of_after_halt {m m' : Machine} {r : Halt} {n : Nat}
    (h : m.after frame spawn n = .halt r m') :
    (m.after frame spawn (stepLimit + 1)).outcome.halt = r := by
  rcases Nat.le_total n (stepLimit + 1) with hle | hle
  · rw [after_of_halt h hle]
    rfl
  · rw [← after_eq_of_limit (Nat.le_add_left _ _) hle, h]
    rfl

theorem after_withPush0 {code calldata : List UInt8}
    (hcreate : ∀ k, ¬ Completes (.ofCode code ⟨calldata, false⟩) spawn .create k)
    (hfault : ∀ pc, (({} : Machine).after (.ofCode code ⟨calldata, false⟩) spawn
      (stepLimit + 1)).outcome.halt ≠ .faulted (.invalidOpcode pc Opcode.push0))
    (n : Nat) :
    ({} : Machine).after (.ofCode code ⟨calldata, true⟩) spawn' n =
      ({} : Machine).after (.ofCode code ⟨calldata, false⟩) spawn n := by
  induction n with
  | zero => rfl
  | succ n ih =>
    rw [after, after, ih]
    refine Transition.andThen_congr fun m hn => step_withPush0 ?_ fun m' hstep => ?_
    -- a creation would be completed, and the fault would be what the frame ends with
    · cases hcode : m.creates? (.ofCode code ⟨calldata, false⟩) with
      | none => rfl
      | some created =>
        obtain ⟨m', opcode, hop, hread, hstep⟩ := exists_next_of_creates? hcode
        exact absurd ⟨m, m', opcode, hn, hop, hread, hstep⟩ (hcreate n)
    · exact hfault m.pc (halt_of_after_halt ((after_succ_of_next hn).trans hstep))

end Machine

open Machine

/-- A run without `PUSH0` that completes no creation in its outermost frame and does not end at the
missing opcode is the same run, to its end, its jumps and its steps, where the opcode exists. -/
theorem run_withPush0 (code calldata : List UInt8)
    (hcreate : ∀ k, ¬ Completes (.ofCode code ⟨calldata, false⟩)
      (Environment.spawn ⟨calldata, false⟩) .create k)
    (hfault : ∀ pc, (run code ⟨calldata, false⟩).halt ≠ .faulted (.invalidOpcode pc Opcode.push0)) :
    run code ⟨calldata, true⟩ = run code ⟨calldata, false⟩ := by
  rw [run_eq_outcome_after] at hfault
  rw [run_eq_outcome_after, run_eq_outcome_after, after_withPush0 hcreate hfault]

/-- A return of one word, with the byte of `PUSH0` as data and behind the end. -/
def returningZeroByte : List UInt8 :=
  [0x60, 0x5f, 0x60, 0x00, 0x52, 0x60, 0x20, 0x60, 0x00, 0xf3, 0x5f]

theorem run_withPush0_returning :
    (∀ k, ¬ Completes (.ofCode returningZeroByte ⟨[7], false⟩)
      (Environment.spawn ⟨[7], false⟩) .create k) ∧
    (∀ pc, (run returningZeroByte ⟨[7], false⟩).halt ≠
      .faulted (.invalidOpcode pc Opcode.push0)) ∧
    run returningZeroByte ⟨[7], true⟩ = run returningZeroByte ⟨[7], false⟩ := by
  have hcreate : ∀ k, ¬ Completes (.ofCode returningZeroByte ⟨[7], false⟩)
      (Environment.spawn ⟨[7], false⟩) .create k := by
    refine not_completes_of_forall ?_
    have hwalk : instructions returningZeroByte = [⟨0, 0x60, [0x5f]⟩, ⟨2, 0x60, [0x00]⟩,
      ⟨4, 0x52, []⟩, ⟨5, 0x60, [0x20]⟩, ⟨7, 0x60, [0x00]⟩, ⟨9, 0xf3, []⟩, ⟨10, 0x5f, []⟩] := by cbv
    rw [hwalk]
    decide
  have hfault : ∀ pc, (run returningZeroByte ⟨[7], false⟩).halt ≠
      .faulted (.invalidOpcode pc Opcode.push0) := by
    have hhalt : (run returningZeroByte ⟨[7], false⟩).halt =
        .returned (List.replicate 31 0 ++ [0x5f]) := by decide +kernel
    intro pc hfault
    rw [hhalt] at hfault
    cases hfault
  exact ⟨hcreate, hfault, run_withPush0 returningZeroByte [7] hcreate hfault⟩

end ImageLinker.Evm
