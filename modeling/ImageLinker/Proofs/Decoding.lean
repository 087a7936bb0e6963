import ImageLinker.Proofs.Running
import ImageLinker.Proofs.Words

/-! A frame of any depth performs the instructions that the walk of its code reads, with the data
that the walk reads. -/
namespace ImageLinker.Evm

/-- The state that a frame has come to, in which it may have ended. -/
def Transition.state : Transition → Machine
  | .next m => m
  | .halt _ m => m

def spawnIn (push0 : Bool) : (room : Nat) → Option (List UInt8 → Outcome)
  | 0 => none
  | room + 1 => some fun created => runFrame push0 room created []

/-- What a frame with room for so many more has come to after so many steps. -/
def frameAfter (code : List UInt8) (env : Environment) (room n : Nat) : Transition :=
  ({} : Machine).after (.ofCode code env) (spawnIn env.push0 room) n

/-- A frame of any depth is its steps, as many as the limit allows and one more. -/
theorem runFrame_eq_outcome_frameAfter (code : List UInt8) (env : Environment) (room : Nat) :
    runFrame env.push0 room code env.calldata =
      (frameAfter code env room (stepLimit + 1)).outcome := by
  rw [frameAfter, ← Machine.drive_eq_outcome_after]
  cases room <;> rfl

def Transition.Within (pc : Nat) : Transition → Prop
  | .next m => m.stack.length ≤ stackLimit
  | .halt _ m => m.pc = pc ∧ m.stack.length ≤ stackLimit

namespace Transition.Within

variable {m m₀ : Machine} {spawn : Option (List UInt8 → Outcome)} {pc : Nat}

theorem fault (h : m.stack.length ≤ stackLimit) (f : Fault) : (m.fault f).Within m.pc := ⟨rfl, h⟩

/-- An instruction that leaves no more words than it found. -/
theorem proceed {stack : List Word} {width : Nat} (h : m.stack.length ≤ stackLimit)
    (hle : stack.length ≤ m.stack.length) : (m₀.proceed stack width).Within pc :=
  Nat.le_trans hle h

theorem push {w : Word} {width : Nat} (h : m.stack.length ≤ stackLimit) :
    (m.push w width).Within m.pc := by
  unfold Machine.push
  split
  · exact fault h _
  · next hroom => exact (Nat.lt_of_not_le hroom : m.stack.length + 1 ≤ stackLimit)

theorem jumpTo {frame : Frame} {destination : Word} {stack : List Word}
    (h : m.stack.length ≤ stackLimit) (hle : stack.length ≤ m.stack.length) :
    (m.jumpTo frame destination stack).Within m.pc := by
  unfold Machine.jumpTo
  split
  · split
    · exact Nat.le_trans hle h
    · exact fault h _
  · exact fault h _

theorem create {code : List UInt8} {below : List Word} (h : m.stack.length ≤ stackLimit)
    (hlt : below.length < m.stack.length) : (m₀.create spawn code below).Within pc := by
  unfold Machine.create
  split
  · exact proceed h hlt
  · exact proceed h hlt

end Transition.Within

namespace Machine

variable {frame : Frame} {spawn : Option (List UInt8 → Outcome)} {m : Machine}

theorem within_perform (h : m.stack.length ≤ stackLimit) (opcode : UInt8) :
    (m.perform frame spawn opcode).Within m.pc := by
  unfold perform
  split
  case h_1 => exact ⟨rfl, h⟩
  case h_2 hs | h_3 hs | h_5 hs | h_7 hs => exact .proceed h (by simp [hs])
  case h_4 | h_15 => exact .push h
  case h_6 hs | h_8 hs | h_9 hs | h_10 hs =>
    split
    · exact .proceed h (by simp only [hs, List.length_cons]; omega)
    · exact .fault h _
  case h_11 hs => exact .jumpTo h (by simp [hs])
  case h_12 hs =>
    split
    · exact .proceed h (by simp only [hs, List.length_cons]; omega)
    · exact .jumpTo h (by simp only [hs, List.length_cons]; omega)
  case h_13 => exact .proceed h (Nat.le_refl _)
  case h_14 | h_16 =>
    split
    · exact .push h
    · exact .fault h _
  case h_17 =>
    split
    · exact .proceed h (by simp)
    · exact .fault h _
  case h_18 hs =>
    split
    · exact .create h (by simp only [hs, List.length_cons]; omega)
    · exact .fault h _
  case h_19 hs | h_20 hs =>
    split
    · refine ⟨rfl, Nat.le_trans ?_ h⟩
      simp only [hs, List.length_cons]
      omega
    · exact .fault h _
  case h_21 | h_22 => exact .fault h _

end Machine

/-- What holds of every state of a frame: it stands where the walk of its code gets to, it has
jumped only to destinations, and its stack is within the limit. -/
structure Follows (code : List UInt8) (m : Machine) : Prop where
  pc : Reaches code m.pc
  jumps : ∀ offset ∈ m.jumps, Reaches code offset ∧ code[offset]? = some Opcode.jumpDest
  stack : m.stack.length ≤ stackLimit

namespace Follows

variable {code : List UInt8} {env : Environment} {spawn : Option (List UInt8 → Outcome)}
  {m : Machine}

theorem start (code : List UInt8) : Follows code {} where
  pc := .start
  jumps offset h := by simp at h
  stack := Nat.zero_le _

theorem perform (h : Follows code m) {opcode : UInt8} (hop : code[m.pc]? = some opcode) :
    Follows code (m.perform (.ofCode code env) spawn opcode).state := by
  have hp := Machine.performed (.ofCode code env) spawn opcode m
  have hw : (m.perform (.ofCode code env) spawn opcode).Within m.pc :=
    Machine.within_perform h.stack opcode
  generalize m.perform (.ofCode code env) spawn opcode = t at hp hw
  cases hp with
  | onward hpc hjumps _ =>
    refine ⟨?_, ?_, hw⟩
    · rw [Transition.state, hpc]
      exact h.pc.next hop
    · rw [Transition.state, hjumps]
      exact h.jumps
  | jumped _ hdest hjumps _ =>
    have hdest := isDestination_ofCode.mp hdest
    refine ⟨hdest.1, ?_, hw⟩
    intro offset hoffset
    rw [Transition.state, hjumps, Array.mem_push] at hoffset
    rcases hoffset with hbefore | rfl
    · exact h.jumps offset hbefore
    · exact hdest
  | halted hjumps _ =>
    refine ⟨?_, ?_, hw.2⟩
    · rw [Transition.state, hw.1]
      exact h.pc
    · rw [Transition.state, hjumps]
      exact h.jumps

theorem step (h : Follows code m) : Follows code (m.step (.ofCode code env) spawn).state := by
  have hcounted : Follows code { m with steps := m.steps + 1 } := ⟨h.pc, h.jumps, h.stack⟩
  by_cases hs : m.steps < stepLimit
  · have hf := Frame.getElem?_code_ofCode code env m.pc
    cases hop : code[m.pc]? with
    | none =>
      rw [hop] at hf
      rw [Machine.step_of_end hf hs]
      exact hcounted
    | some opcode =>
      rw [hop] at hf
      rw [Machine.step_of_opcode hf hs]
      exact hcounted.perform hop
  · rw [Machine.step_of_limit (Nat.le_of_not_lt hs)]
    exact hcounted

theorem after (code : List UInt8) (env : Environment) (spawn : Option (List UInt8 → Outcome))
    (n : Nat) : Follows code (({} : Machine).after (.ofCode code env) spawn n).state := by
  induction n with
  | zero => exact start code
  | succ n ih =>
    rw [Machine.after]
    cases hn : ({} : Machine).after (.ofCode code env) spawn n with
    | next m =>
      rw [hn] at ih
      exact ih.step
    | halt r m =>
      rw [hn] at ih
      exact ih

end Follows

theorem toNat_of_push? {width : Nat} {opcode : UInt8} (h : Opcode.push? width = some opcode) :
    1 ≤ width ∧ width ≤ 32 ∧ opcode.toNat = 0x5f + width := by
  unfold Opcode.push? at h
  split at h
  · next hw =>
    cases h
    rw [UInt8.toNat_ofNat']
    omega
  · cases h

theorem Operation.ofByte_of_push? {width : Nat} {opcode : UInt8}
    (h : Opcode.push? width = some opcode) : Operation.ofByte opcode = .push width := by
  obtain ⟨hpos, hle, hop⟩ := toNat_of_push? h
  unfold Operation.ofByte
  dsimp only
  rw [if_pos (by omega), hop]
  congr 1
  omega

/-- After any number of steps, a frame of any depth stands at an instruction that the walk of its
code reads or past its last byte, it has jumped only to `JUMPDEST` instructions, its stack is within
the limit, and a push that it is at pushes the data of the walk's instruction, zeros filled in. -/
theorem frame_follows_walk (code : List UInt8) (env : Environment) (room n : Nat) :
    ((∃ i ∈ instructions code, i.offset = (frameAfter code env room n).state.pc) ∨
      code.length ≤ (frameAfter code env room n).state.pc) ∧
    (∀ offset ∈ (frameAfter code env room n).state.jumps,
      ∃ i ∈ instructions code, i.offset = offset ∧ i.opcode = Opcode.jumpDest) ∧
    (frameAfter code env room n).state.stack.length ≤ 1024 ∧
    ∀ m, frameAfter code env room n = .next m → ∀ width opcode,
      Opcode.push? width = some opcode → code[m.pc]? = some opcode →
      ∃ i ∈ instructions code, i.offset = m.pc ∧ i.opcode = opcode ∧ i.immediate.length ≤ width ∧
        ∃ pushed : Word, pushed.toNat = Word.bigEndian
            (i.immediate ++ List.replicate (width - i.immediate.length) 0) ∧
          (m.steps < stepLimit → m.step (.ofCode code env) (spawnIn env.push0 room) =
            { m with steps := m.steps + 1 }.push pushed width) := by
  have h : Follows code (frameAfter code env room n).state := Follows.after code env _ n
  refine ⟨?_, ?_, h.stack, ?_⟩
  · cases hop : code[(frameAfter code env room n).state.pc]? with
    | none => exact .inr (List.getElem?_eq_none_iff.mp hop)
    | some opcode =>
      obtain ⟨i, hi, hoffset, _⟩ := h.pc.exists_instruction hop
      exact .inl ⟨i, hi, hoffset⟩
  · intro offset hoffset
    obtain ⟨hr, hop⟩ := h.jumps offset hoffset
    exact hr.exists_instruction hop
  · intro m hm width opcode hpush hop
    rw [hm] at h
    obtain ⟨_, hle, _⟩ := toNat_of_push? hpush
    have hread := Operation.ofByte_of_push? hpush
    have hwidth : width = Opcode.immediateLength opcode := by
      rw [← Operation.width_ofByte, hread]
      rfl
    have hlen : ((code.drop (m.pc + 1)).take width).length ≤ width := List.length_take_le _ _
    refine ⟨⟨m.pc, opcode, (code.drop (m.pc + 1)).take width⟩,
      (mem_instructions _).mpr ⟨h.pc, hop, by rw [hwidth]⟩, rfl, rfl, hlen, ?_⟩
    refine ⟨_, Word.toNat_ofImmediate hlen hle, fun hs => ?_⟩
    have hf := Frame.getElem?_code_ofCode code env m.pc
    rw [hop] at hf
    rw [Machine.step_of_opcode hf hs, Machine.perform_push hread]
    simp only [Frame.ofCode, Array.toList_extract, List.extract_eq_take_drop,
      Nat.add_sub_cancel_left]

/-- Of a push of two bytes the code holds one. -/
theorem frame_follows_walk_truncated : ∃ pushed : Word, pushed.toNat = 0x1200 ∧
    ({} : Machine).step (.ofCode [0x61, 0x12] {}) none =
      .next { pc := 3, stack := [pushed], steps := 1 } := by
  obtain ⟨_, _, _, hpush⟩ := frame_follows_walk [0x61, 0x12] {} 0 0
  obtain ⟨i, hi, _, _, _, pushed, hvalue, hstep⟩ := hpush {} rfl 2 0x61 (by decide) rfl
  have hwalk : instructions [0x61, 0x12] = [⟨0, 0x61, [0x12]⟩] := by cbv
  rw [hwalk] at hi
  obtain rfl := List.mem_singleton.mp hi
  exact ⟨pushed, hvalue, hstep (by decide)⟩

end ImageLinker.Evm
