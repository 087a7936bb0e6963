import ImageLinker.Proofs.Decoding

/-! Every frame ends, and the steps that its outcome reports are its own and those of all frames
created below it. -/
namespace ImageLinker.Evm

/-- A transition behind which so many steps have been counted, and which is not the end that the
limit on steps makes. -/
def Transition.Counted (steps : Nat) : Transition → Prop
  | .next m => m.steps = steps
  | .halt r m => m.steps = steps ∧ r ≠ .faulted .stepLimit

namespace Transition.Counted

variable {m : Machine}

theorem fault {f : Fault} (h : f ≠ .stepLimit) : (m.fault f).Counted m.steps :=
  ⟨rfl, fun heq => h (Halt.faulted.inj heq)⟩

theorem push {w : Word} {width : Nat} : (m.push w width).Counted m.steps := by
  unfold Machine.push
  split
  · exact fault nofun
  · rfl

theorem jumpTo {frame : Frame} {destination : Word} {stack : List Word} :
    (m.jumpTo frame destination stack).Counted m.steps := by
  unfold Machine.jumpTo
  split
  · split
    · rfl
    · exact fault nofun
  · exact fault nofun

end Transition.Counted

namespace Machine

variable {frame : Frame} {spawn : Option (List UInt8 → Outcome)} {m m' : Machine}

/-- The code that an operation wants a new frame for. -/
def request? (m : Machine) (op : Operation) : Option (List UInt8) :=
  match op, m.stack with
  | .create, _ :: offset :: size :: _ =>
    (m.memory.reserve? offset size).map fun (start, memory) => memory.read start size.toNat
  | _, _ => none

theorem counted_perform (opcode : UInt8) :
    (m.perform frame none opcode).Counted m.steps := by
  unfold perform
  split
  case h_1 => exact ⟨rfl, nofun⟩
  case h_2 | h_3 | h_5 | h_7 | h_13 => rfl
  case h_4 | h_15 => exact .push
  case h_6 | h_8 | h_9 | h_10 | h_17 | h_18 =>
    split
    · rfl
    · exact .fault nofun
  case h_11 => exact .jumpTo
  case h_12 =>
    split
    · rfl
    · exact .jumpTo
  case h_14 | h_16 =>
    split
    · exact .push
    · exact .fault nofun
  case h_19 | h_20 =>
    split
    · exact ⟨rfl, nofun⟩
    · exact .fault nofun
  case h_21 | h_22 => exact .fault nofun

/-- An operation that wants no frame does the same whether or not there is room for one. -/
theorem perform_of_request?_eq_none {opcode : UInt8}
    (h : m.request? (Operation.ofByte opcode) = none) :
    m.perform frame spawn opcode = m.perform frame none opcode := by
  unfold perform
  split
  case h_18 hop hs =>
    simp only [request?, hop, hs, Option.map_eq_none_iff] at h
    simp only [h]
  all_goals simp_all only

/-- An operation that wants a frame goes on behind the creation of one. -/
theorem perform_of_request?_eq_some {opcode : UInt8} {code : List UInt8}
    (h : m.request? (Operation.ofByte opcode) = some code) : ∃ (m₁ : Machine) (below : List Word),
      m₁.steps = m.steps ∧ ∀ spawn, m.perform frame spawn opcode = m₁.create spawn code below := by
  unfold request? at h
  split at h
  case h_1 below hop hs =>
    obtain ⟨⟨start, memory⟩, hreserve, rfl⟩ := Option.map_eq_some_iff.mp h
    refine ⟨{ m with memory }, below, rfl, fun spawn => ?_⟩
    unfold perform
    simp only [hop, hs, hreserve]
  case h_2 => cases h

def creates? (frame : Frame) (m : Machine) : Option (List UInt8) :=
  if m.steps < stepLimit then
    (frame.code[m.pc]?).bind fun opcode => m.request? (Operation.ofByte opcode)
  else none

theorem step_of_creates?_eq_none (h : m.creates? frame = none) :
    m.step frame spawn = m.step frame none := by
  by_cases hs : m.steps < stepLimit
  · cases hop : frame.code[m.pc]? with
    | none => rw [step_of_end hop hs, step_of_end hop hs]
    | some opcode =>
      rw [creates?, if_pos hs, hop, Option.bind_some] at h
      rw [step_of_opcode hop hs, step_of_opcode hop hs]
      exact perform_of_request?_eq_none h
  · have hs := Nat.le_of_not_lt hs
    rw [step_of_limit hs, step_of_limit hs]

theorem step_of_creates?_eq_some {code : List UInt8} (h : m.creates? frame = some code) :
    ∃ (m₁ : Machine) (below : List Word), m.steps < stepLimit ∧ m₁.steps = m.steps + 1 ∧
      ∀ spawn, m.step frame spawn = m₁.create spawn code below := by
  unfold creates? at h
  split at h
  case isTrue hs =>
    obtain ⟨opcode, hop, hrequest⟩ := Option.bind_eq_some_iff.mp h
    obtain ⟨m₁, below, hsteps, hcreate⟩ :=
      perform_of_request?_eq_some (m := { m with steps := m.steps + 1 }) hrequest
    refine ⟨m₁, below, hs, hsteps, fun spawn => ?_⟩
    rw [step_of_opcode hop hs, hcreate]
  case isFalse => cases h

/-- A step without a new frame counts once, and fails the limit exactly when it is reached. -/
theorem counted_step (m : Machine) (frame : Frame) :
    (m.steps < stepLimit ∧ (m.step frame none).Counted (m.steps + 1)) ∨
      (stepLimit ≤ m.steps ∧ m.step frame none =
        .halt (.faulted .stepLimit) { m with steps := m.steps + 1 }) := by
  by_cases hs : m.steps < stepLimit
  · refine .inl ⟨hs, ?_⟩
    cases hop : frame.code[m.pc]? with
    | none =>
      rw [step_of_end hop hs]
      exact ⟨rfl, nofun⟩
    | some opcode =>
      rw [step_of_opcode hop hs]
      exact counted_perform opcode
  · have hs := Nat.le_of_not_lt hs
    exact .inr ⟨hs, step_of_limit hs⟩

theorem steps_of_step_none {m' : Machine} (h : m.step frame none = .next m') :
    m.steps < stepLimit ∧ m'.steps = m.steps + 1 := by
  rcases counted_step m frame with ⟨hs, hcounted⟩ | ⟨_, hlimit⟩
  · rw [h] at hcounted
    exact ⟨hs, hcounted⟩
  · rw [h] at hlimit
    cases hlimit

theorem creates?_of_step_halt {r : Halt} {m' : Machine} (h : m.step frame spawn = .halt r m') :
    m.creates? frame = none := by
  cases hcode : m.creates? frame with
  | none => rfl
  | some code =>
    obtain ⟨m₁, below, _, _, hcreate⟩ := step_of_creates?_eq_some hcode
    rw [hcreate] at h
    unfold create at h
    split at h <;> cases h

end Machine

open Machine

/-- A frame that `room` further frames fit into goes from a state to its outcome in so many calls of
`step`, its own and those of all frames that are created below it. -/
inductive Executes (push0 : Bool) : (room : Nat) → Frame → Machine → Outcome → (calls : Nat) → Prop
    where
  | ends {room : Nat} {frame : Frame} {m m' : Machine} {r : Halt}
      (hstep : m.step frame none = .halt r m') :
      Executes push0 room frame m ⟨r, m'.jumps.toList, m'.steps⟩ 1
  | goesOn {room calls : Nat} {frame : Frame} {m m' : Machine} {o : Outcome}
      (hcode : room = 0 ∨ m.creates? frame = none) (hstep : m.step frame none = .next m')
      (rest : Executes push0 room frame m' o calls) : Executes push0 room frame m o (1 + calls)
  | creates {room inside calls : Nat} {frame : Frame} {m m' : Machine} {created o : Outcome}
      {code : List UInt8} (hcode : m.creates? frame = some code)
      (child : Executes push0 room (.ofCode code ⟨[], push0⟩) {} created inside)
      (hstep : m.step frame (some fun _ => created) = .next m')
      (rest : Executes push0 (room + 1) frame m' o calls) :
      Executes push0 (room + 1) frame m o (1 + inside + calls)

namespace Executes

variable {push0 : Bool} {room calls calls' : Nat} {frame : Frame} {m : Machine} {o o' : Outcome}

theorem unique (h : Executes push0 room frame m o calls)
    (h' : Executes push0 room frame m o' calls') : o = o' ∧ calls = calls' := by
  induction h generalizing o' calls' with
  | ends hstep =>
    cases h' with
    | ends hstep' =>
      rw [hstep] at hstep'
      cases hstep'
      exact ⟨rfl, rfl⟩
    | goesOn _ hstep' _ =>
      rw [hstep] at hstep'
      cases hstep'
    | creates hcode _ _ _ =>
      rw [creates?_of_step_halt hstep] at hcode
      cases hcode
  | goesOn hcode hstep _ ih =>
    cases h' with
    | ends hstep' =>
      rw [hstep] at hstep'
      cases hstep'
    | goesOn _ hstep' rest' =>
      rw [hstep] at hstep'
      cases hstep'
      obtain ⟨rfl, rfl⟩ := ih rest'
      exact ⟨rfl, rfl⟩
    | creates hcode' _ _ _ =>
      rcases hcode with hroom | hnone
      · cases hroom
      · rw [hnone] at hcode'
        cases hcode'
  | creates hcode _ hstep _ ihchild ihrest =>
    cases h' with
    | ends hstep' =>
      rw [creates?_of_step_halt hstep'] at hcode
      cases hcode
    | goesOn hcode' _ _ =>
      rcases hcode' with hroom | hnone
      · cases hroom
      · rw [hnone] at hcode
        cases hcode
    | creates hcode' child' hstep' rest' =>
      rw [hcode] at hcode'
      cases hcode'
      obtain ⟨rfl, rfl⟩ := ihchild child'
      rw [hstep] at hstep'
      cases hstep'
      obtain ⟨rfl, rfl⟩ := ihrest rest'
      exact ⟨rfl, rfl⟩

/-- What a created frame adds to the steps of the one below it. -/
theorem steps_of_creates {created : Outcome} {code : List UInt8} {m' : Machine}
    (hcode : m.creates? frame = some code)
    (hstep : m.step frame (some fun _ => created) = .next m') :
    m.steps < stepLimit ∧ m'.steps = m.steps + 1 + created.steps := by
  obtain ⟨m₁, below, hs, hsteps, hcreate⟩ := step_of_creates?_eq_some hcode
  rw [hcreate] at hstep
  cases hstep
  exact ⟨hs, congrArg (· + created.steps) hsteps⟩

/-- A frame counts every call. -/
theorem steps_eq (h : Executes push0 room frame m o calls) : o.steps = m.steps + calls := by
  induction h with
  | ends hstep => exact (of_step_halt hstep).2
  | goesOn _ hstep _ ih =>
    rw [ih, (steps_of_step_none hstep).2]
    omega
  | creates hcode _ hstep _ ihchild ihrest =>
    rw [ihrest, (steps_of_creates hcode hstep).2, ihchild]
    dsimp only
    omega

/-- A frame that has not counted more than the limit and the steps of one created frame ends with
one step more at most, and ends at the limit if it has counted more. -/
theorem steps_le (h : Executes push0 room frame m o calls)
    (hm : m.steps ≤ stepLimit + room * (stepLimit + 1)) :
    o.steps ≤ (room + 1) * (stepLimit + 1) ∧
      (o.halt = .faulted .stepLimit ↔ stepLimit < o.steps) := by
  induction h with
  | @ends room frame m m' r hstep =>
    have hsteps := (of_step_halt hstep).2
    refine ⟨?_, ?_⟩
    · dsimp only
      rw [hsteps, Nat.succ_mul]
      omega
    · rcases counted_step m frame with ⟨hs, hcounted⟩ | ⟨hs, hlimit⟩
      · rw [hstep] at hcounted
        dsimp only
        constructor
        · intro hr
          exact absurd hr hcounted.2
        · intro hlt
          omega
      · rw [hstep] at hlimit
        cases hlimit
        exact ⟨fun _ => Nat.lt_succ_of_le hs, fun _ => rfl⟩
  | goesOn _ hstep _ ih =>
    obtain ⟨hs, hsteps⟩ := steps_of_step_none hstep
    exact ih (by omega)
  | creates hcode _ hstep _ ihchild ihrest =>
    obtain ⟨hs, hsteps⟩ := steps_of_creates hcode hstep
    obtain ⟨hle, _⟩ := ihchild (Nat.zero_le _)
    exact ihrest (by omega)

end Executes

/-- Driving a frame ends within the fuel that its steps leave. -/
theorem executes_drive {push0 : Bool} {room : Nat} (frame : Frame)
    (hcreated : ∀ room', room = room' + 1 → ∀ code, ∃ calls, Executes push0 room'
      (.ofCode code ⟨[], push0⟩) {} (runFrame push0 room' code []) calls)
    (fuel : Nat) (m : Machine) (hfuel : stepLimit ≤ m.steps + fuel) :
    ∃ calls, Executes push0 room frame m (m.drive frame (spawnIn push0 room) (fuel + 1)) calls := by
  induction fuel generalizing m with
  | zero =>
    rw [drive, step_of_limit hfuel]
    exact ⟨1, .ends (step_of_limit hfuel)⟩
  | succ fuel ih =>
    rw [drive]
    cases hstep : m.step frame (spawnIn push0 room) with
    | halt r m' =>
      rw [step_of_creates?_eq_none (creates?_of_step_halt hstep)] at hstep
      exact ⟨1, .ends hstep⟩
    | next m' =>
      have hsteps := steps_of_step_next hstep
      obtain ⟨calls, rest⟩ := ih m' (by omega)
      cases room with
      | zero => exact ⟨_, .goesOn (.inl rfl) hstep rest⟩
      | succ room =>
        cases hcode : m.creates? frame with
        | none =>
          rw [step_of_creates?_eq_none hcode] at hstep
          exact ⟨_, .goesOn (.inr hcode) hstep rest⟩
        | some code =>
          obtain ⟨inside, child⟩ := hcreated room rfl code
          obtain ⟨m₁, below, _, _, hcreate⟩ := step_of_creates?_eq_some hcode
          rw [hcreate] at hstep
          exact ⟨_, .creates hcode child ((hcreate _).trans hstep) rest⟩

theorem executes_runFrame (push0 : Bool) (room : Nat) (code calldata : List UInt8) :
    ∃ calls, Executes push0 room (.ofCode code ⟨calldata, push0⟩) {}
      (runFrame push0 room code calldata) calls := by
  induction room generalizing code calldata with
  | zero =>
    refine executes_drive _ (fun _ hroom => ?_) stepLimit {} (Nat.le_add_left _ _)
    cases hroom
  | succ room ih =>
    refine executes_drive _ (fun room' hroom code => ?_) stepLimit {} (Nat.le_add_left _ _)
    cases hroom
    exact ih code []

/-- A frame of any depth ends; the steps of its outcome are the calls of `step` in it and in all
frames that are created below it. They are bounded by the frames that still fit, and the limit is
what ends a frame exactly when they are more. -/
theorem runFrame_counts_steps (push0 : Bool) (depth : Fin depthLimit) (code calldata : List UInt8) :
    (∀ outcome calls, Executes push0 (depthLimit - 1 - depth) (.ofCode code ⟨calldata, push0⟩) {}
        outcome calls ↔
      outcome = runFrame push0 (depthLimit - 1 - depth) code calldata ∧ calls = outcome.steps) ∧
    (runFrame push0 (depthLimit - 1 - depth) code calldata).steps ≤
      (depthLimit - depth) * (stepLimit + 1) ∧
    ((runFrame push0 (depthLimit - 1 - depth) code calldata).halt = .faulted .stepLimit ↔
      stepLimit < (runFrame push0 (depthLimit - 1 - depth) code calldata).steps) := by
  obtain ⟨calls, h⟩ := executes_runFrame push0 (depthLimit - 1 - depth) code calldata
  have hcalls : _ = calls := h.steps_eq.trans (Nat.zero_add calls)
  have hroom : depthLimit - 1 - depth + 1 = depthLimit - depth := by omega
  refine ⟨fun outcome n => ⟨fun hn => ?_, ?_⟩, ?_⟩
  · obtain ⟨rfl, rfl⟩ := hn.unique h
    exact ⟨rfl, hcalls.symm⟩
  · rintro ⟨rfl, rfl⟩
    rw [hcalls]
    exact h
  · rw [← hroom]
    exact h.steps_le (Nat.zero_le _)

end ImageLinker.Evm
