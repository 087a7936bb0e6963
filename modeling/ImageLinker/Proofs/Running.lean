import ImageLinker.Evm.Machine
import ImageLinker.Proofs.Walk

/-! What one instruction can do to a frame, and what a frame has come to after many. -/
namespace ImageLinker.Evm

/-- How many bytes of data the instruction of an operation has. -/
def Operation.width : Operation → Nat
  | .push n => n
  | _ => 0

theorem Operation.width_ofPlainByte (n : Nat) : (Operation.ofPlainByte n).width = 0 := by
  unfold Operation.ofPlainByte
  split <;> rfl

/-- The walk and the machine agree on how much data an opcode has. -/
theorem Operation.width_ofByte (b : UInt8) :
    (Operation.ofByte b).width = Opcode.immediateLength b := by
  unfold Operation.ofByte Opcode.immediateLength
  simp only [UInt8.le_iff_toNat_le, Opcode.push1, Opcode.push32, UInt8.reduceToNat]
  split
  · rfl
  · split
    · rfl
    · split
      · rfl
      · exact Operation.width_ofPlainByte _

theorem getElem?_foldl_setIfInBounds {α : Type} (offsets : List Nat) (xs : Array α) (v : α)
    (k : Nat) : (offsets.foldl (fun xs offset => xs.setIfInBounds offset v) xs)[k]? =
      if k ∈ offsets ∧ k < xs.size then some v else xs[k]? := by
  induction offsets generalizing xs with
  | nil => simp
  | cons o rest ih =>
    rw [List.foldl_cons, ih, Array.size_setIfInBounds, Array.getElem?_setIfInBounds]
    by_cases hk : k < xs.size
    · by_cases ho : o = k
      · simp [ho, hk]
      · simp [ho, hk, Ne.symm ho]
    · by_cases ho : o = k
      · simp [ho, hk]
      · simp [ho, hk]

theorem Frame.getElem?_code_ofCode (code : List UInt8) (env : Environment) (k : Nat) :
    (Frame.ofCode code env).code[k]? = code[k]? :=
  List.getElem?_toArray

/-- A jump may go to the `JUMPDEST` instructions that the walk of the code gets to. -/
theorem isDestination_ofCode {code : List UInt8} {env : Environment} {k : Nat} :
    (Frame.ofCode code env).isDestination k = true ↔
      Reaches code k ∧ code[k]? = some Opcode.jumpDest := by
  rw [← mem_jumpDestinations]
  unfold Frame.isDestination Frame.ofCode
  rw [getElem?_foldl_setIfInBounds, Array.size_replicate, Array.getElem?_replicate]
  constructor
  · intro h
    by_cases hk : k ∈ jumpDestinations code ∧ k < code.length
    · exact hk.1
    · rw [if_neg hk] at h
      split at h <;> cases h
  · intro h
    have hlt := (List.getElem?_eq_some_iff.mp (mem_jumpDestinations.mp h).2).1
    rw [if_pos ⟨h, hlt⟩]
    rfl

namespace Machine

variable {frame : Frame} {spawn : Option (List UInt8 → Outcome)} {opcode : UInt8}

/-- What an instruction can lead to: the one behind it, a destination that it jumps to, or a halt
where it stands. Only a created frame adds steps. -/
inductive Performed (m : Machine) (frame : Frame) (opcode : UInt8) : Transition → Prop where
  | onward {m' : Machine} (hpc : m'.pc = m.pc + 1 + Opcode.immediateLength opcode)
      (hjumps : m'.jumps = m.jumps) (hsteps : m.steps ≤ m'.steps) :
      Performed m frame opcode (.next m')
  | jumped {m' : Machine}
      (hop : Operation.ofByte opcode = .jump ∨ Operation.ofByte opcode = .jumpIf)
      (hdest : frame.isDestination m'.pc = true) (hjumps : m'.jumps = m.jumps.push m'.pc)
      (hsteps : m'.steps = m.steps) : Performed m frame opcode (.next m')
  | halted {h : Halt} {m' : Machine} (hjumps : m'.jumps = m.jumps) (hsteps : m'.steps = m.steps) :
      Performed m frame opcode (.halt h m')

namespace Performed

variable {m : Machine}

theorem fault (f : Fault) : Performed m frame opcode (m.fault f) := .halted rfl rfl

theorem proceed {m₀ : Machine} {stack : List Word} {width : Nat}
    (hw : width = Opcode.immediateLength opcode) (hpc : m₀.pc = m.pc := by rfl)
    (hjumps : m₀.jumps = m.jumps := by rfl)
    (hsteps : m.steps ≤ m₀.steps := by exact Nat.le_refl _) :
    Performed m frame opcode (m₀.proceed stack width) :=
  .onward (by rw [← hpc, ← hw]) hjumps hsteps

theorem push {w : Word} {width : Nat} (hw : width = Opcode.immediateLength opcode) :
    Performed m frame opcode (m.push w width) := by
  unfold Machine.push
  split
  · exact .fault _
  · exact .proceed hw

theorem jumpTo {destination : Word} {stack : List Word}
    (hop : Operation.ofByte opcode = .jump ∨ Operation.ofByte opcode = .jumpIf) :
    Performed m frame opcode (m.jumpTo frame destination stack) := by
  unfold Machine.jumpTo
  split
  · split
    · next hdest => exact .jumped hop hdest rfl rfl
    · exact .fault _
  · exact .fault _

theorem create {m₀ : Machine} {code : List UInt8} {below : List Word}
    (hw : 0 = Opcode.immediateLength opcode) (hpc : m₀.pc = m.pc := by rfl)
    (hjumps : m₀.jumps = m.jumps := by rfl) (hsteps : m.steps = m₀.steps := by rfl) :
    Performed m frame opcode (m₀.create spawn code below) := by
  unfold Machine.create
  split
  · exact .proceed hw hpc hjumps (Nat.le_of_eq hsteps)
  · exact .proceed hw hpc hjumps (hsteps ▸ Nat.le_add_right _ _)

end Performed

/-- Everything an instruction can do, one alternative of its definition after the other. -/
theorem performed (frame : Frame) (spawn : Option (List UInt8 → Outcome)) (opcode : UInt8)
    (m : Machine) : Performed m frame opcode (m.perform frame spawn opcode) := by
  have width {op : Operation} (hop : Operation.ofByte opcode = op) :
      op.width = Opcode.immediateLength opcode := hop ▸ Operation.width_ofByte opcode
  unfold perform
  split
  case h_1 => exact .halted rfl rfl
  case h_2 hop _ | h_3 hop _ | h_5 hop _ | h_7 hop _ => exact .proceed (width hop)
  case h_4 hop => exact .push (width hop)
  case h_6 hop _ | h_8 hop _ | h_9 hop _ | h_10 hop _ =>
    split
    · exact .proceed (width hop)
    · exact .fault _
  case h_11 hop _ => exact .jumpTo (.inl hop)
  case h_12 hop _ =>
    split
    · exact .proceed (width hop)
    · exact .jumpTo (.inr hop)
  case h_13 hop => exact .proceed (width hop)
  case h_15 hop => exact .push (width hop)
  case h_14 hop | h_16 hop =>
    split
    · exact .push (width hop)
    · exact .fault _
  case h_17 hop =>
    split
    · exact .proceed (width hop)
    · exact .fault _
  case h_18 hop _ =>
    split
    · exact .create (width hop)
    · exact .fault _
  case h_19 | h_20 =>
    split
    · exact .halted rfl rfl
    · exact .fault _
  case h_21 | h_22 => exact .fault _

section

variable {m : Machine}

theorem push_of_lt {w : Word} {width : Nat} (h : m.stack.length < stackLimit) :
    m.push w width = m.proceed (w :: m.stack) width := by
  unfold push
  rw [if_neg (Nat.not_le.mpr h)]

theorem stack_of_push {w : Word} {width : Nat} {m' : Machine} (h : m.push w width = .next m') :
    m'.stack = w :: m.stack := by
  unfold push at h
  split at h
  · cases h
  · cases h
    rfl

theorem perform_stop (hop : Operation.ofByte opcode = .stop) :
    m.perform frame spawn opcode = .halt .stopped m := by
  unfold perform
  rw [hop]

theorem perform_read {what : Reading} (hop : Operation.ofByte opcode = .read what) :
    m.perform frame spawn opcode = m.push (m.reading frame what) := by
  unfold perform
  rw [hop]

theorem perform_callDataLoad {offset : Word} {below : List Word}
    (hop : Operation.ofByte opcode = .callDataLoad) (hs : m.stack = offset :: below) :
    m.perform frame spawn opcode =
      m.proceed (.ofBytes (frame.loaded offset) :: below) := by
  unfold perform
  rw [hop, hs]

theorem perform_binary {op : BinaryOp} {a b : Word} {below : List Word}
    (hop : Operation.ofByte opcode = .binary op) (hs : m.stack = a :: b :: below) :
    m.perform frame spawn opcode = m.proceed (op.eval a b :: below) := by
  unfold perform
  rw [hop, hs]

theorem perform_push {width : Nat} (hop : Operation.ofByte opcode = .push width) :
    m.perform frame spawn opcode = m.push
      (.ofImmediate (frame.code.extract (m.pc + 1) (m.pc + 1 + width)).toList width) width := by
  unfold perform
  rw [hop]

theorem perform_pushZero (hop : Operation.ofByte opcode = .pushZero) :
    m.perform frame spawn opcode =
      if frame.push0 then m.push .zero else m.fault (.invalidOpcode m.pc opcode) := by
  unfold perform
  rw [hop]

theorem perform_dup_one {w : Word} {below : List Word} (hop : Operation.ofByte opcode = .dup 1)
    (hs : m.stack = w :: below) : m.perform frame spawn opcode = m.push w := by
  unfold perform
  rw [hop, hs]
  rfl

/-- A copy that ends the frame has read nothing of it. -/
theorem perform_copy_of_halt {frame' : Frame} {source : CopySource} {r : Halt} {m' : Machine}
    (hop : Operation.ofByte opcode = .copy source)
    (h : m.perform frame spawn opcode = .halt r m') :
    m.perform frame' spawn opcode = .halt r m' := by
  unfold perform at h ⊢
  match hs : m.stack with
  | dest :: offset :: size :: below =>
    simp only [hop, hs] at h ⊢
    cases hres : m.memory.reserve? dest size with
    | none =>
      rw [hres] at h
      exact h
    | some reserved =>
      rw [hres] at h
      cases h
  | [] | [_] | [_, _] =>
    simp only [hop, hs] at h ⊢
    exact h

theorem perform_jump {destination : Word} {below : List Word}
    (hop : Operation.ofByte opcode = .jump) (hs : m.stack = destination :: below) :
    m.perform frame spawn opcode = m.jumpTo frame destination below := by
  unfold perform
  rw [hop, hs]

end

theorem step_of_opcode {m : Machine} (hop : frame.code[m.pc]? = some opcode)
    (hs : m.steps < stepLimit) :
    m.step frame spawn = { m with steps := m.steps + 1 }.perform frame spawn opcode := by
  unfold step
  simp only [hop, if_neg (Nat.not_lt.mpr (Nat.succ_le_of_lt hs))]

theorem step_of_end {m : Machine} (hend : frame.code[m.pc]? = none) (hs : m.steps < stepLimit) :
    m.step frame spawn = .halt .stopped { m with steps := m.steps + 1 } := by
  unfold step
  simp only [hend, if_neg (Nat.not_lt.mpr (Nat.succ_le_of_lt hs))]

theorem step_of_limit {m : Machine} (hs : stepLimit ≤ m.steps) :
    m.step frame spawn = .halt (.faulted .stepLimit) { m with steps := m.steps + 1 } := by
  unfold step
  simp only [if_pos (Nat.lt_succ_of_le hs), fault]

/-- A frame goes on only from an instruction, and only within its steps. -/
theorem of_step_next {m m' : Machine} (h : m.step frame spawn = .next m') :
    ∃ opcode, frame.code[m.pc]? = some opcode ∧ m.steps < stepLimit ∧
      { m with steps := m.steps + 1 }.perform frame spawn opcode = .next m' ∧
      Performed { m with steps := m.steps + 1 } frame opcode (.next m') := by
  by_cases hs : m.steps < stepLimit
  · cases hop : frame.code[m.pc]? with
    | none =>
      rw [step_of_end hop hs] at h
      cases h
    | some opcode =>
      rw [step_of_opcode hop hs] at h
      exact ⟨opcode, rfl, hs, h, h ▸ performed frame spawn opcode _⟩
  · rw [step_of_limit (Nat.le_of_not_lt hs)] at h
    cases h

theorem steps_of_step_next {m m' : Machine} (h : m.step frame spawn = .next m') :
    m.steps < m'.steps := by
  obtain ⟨_, _, _, _, hp⟩ := of_step_next h
  cases hp with
  | onward _ _ hsteps => exact hsteps
  | jumped _ _ _ hsteps => exact hsteps ▸ Nat.lt_succ_self _

theorem of_step_halt {m m' : Machine} {r : Halt} (h : m.step frame spawn = .halt r m') :
    m'.jumps = m.jumps ∧ m'.steps = m.steps + 1 := by
  by_cases hs : m.steps < stepLimit
  · cases hop : frame.code[m.pc]? with
    | none =>
      rw [step_of_end hop hs] at h
      cases h
      exact ⟨rfl, rfl⟩
    | some opcode =>
      rw [step_of_opcode hop hs] at h
      have hp := performed frame spawn opcode { m with steps := m.steps + 1 }
      rw [h] at hp
      cases hp with
      | halted hjumps hsteps => exact ⟨hjumps, hsteps⟩
  · rw [step_of_limit (Nat.le_of_not_lt hs)] at h
    cases h
    exact ⟨rfl, rfl⟩

end Machine

/-- Goes on from a state; a frame that has ended stays as it is. -/
def Transition.andThen (t : Transition) (f : Machine → Transition) : Transition :=
  match t with
  | .next m => f m
  | .halt r m => .halt r m

theorem Transition.andThen_congr {t : Transition} {f g : Machine → Transition}
    (h : ∀ m, t = .next m → f m = g m) : t.andThen f = t.andThen g := by
  cases t with
  | next m => exact h m rfl
  | halt r m => rfl

/-- What is reported of a frame. One that has not ended counts as out of steps. -/
def Transition.outcome : Transition → Outcome
  | .next m => ⟨.faulted .stepLimit, m.jumps.toList, m.steps⟩
  | .halt r m => ⟨r, m.jumps.toList, m.steps⟩

namespace Machine

variable {frame : Frame} {spawn : Option (List UInt8 → Outcome)}

def after (frame : Frame) (spawn : Option (List UInt8 → Outcome)) (m : Machine) : Nat → Transition
  | 0 => .next m
  | n + 1 => (m.after frame spawn n).andThen fun m => m.step frame spawn

theorem after_add (m : Machine) (a b : Nat) : m.after frame spawn (a + b) =
    (m.after frame spawn a).andThen fun m => m.after frame spawn b := by
  induction b with
  | zero => cases h : m.after frame spawn a <;> simp [after, Transition.andThen]
  | succ b ih =>
    rw [← Nat.add_assoc, after, ih]
    cases m.after frame spawn a <;> rfl

theorem after_add_of_next {m m' : Machine} {a : Nat} (h : m.after frame spawn a = .next m')
    (b : Nat) : m.after frame spawn (a + b) = m'.after frame spawn b := by
  rw [after_add, h]
  rfl

theorem after_of_halt {m m' : Machine} {r : Halt} {a b : Nat}
    (h : m.after frame spawn a = .halt r m') (hle : a ≤ b) :
    m.after frame spawn b = .halt r m' := by
  obtain ⟨k, rfl⟩ := Nat.le.dest hle
  rw [after_add, h]
  rfl

theorem after_succ_of_next {m m' : Machine} {n : Nat} (h : m.after frame spawn n = .next m') :
    m.after frame spawn (n + 1) = m'.step frame spawn := by
  rw [after, h]
  rfl

theorem after_succ_of_opcode {m m' : Machine} {n : Nat} {opcode : UInt8}
    (h : m.after frame spawn n = .next m') (hop : frame.code[m'.pc]? = some opcode)
    (hs : m'.steps < stepLimit) : m.after frame spawn (n + 1) =
      { m' with steps := m'.steps + 1 }.perform frame spawn opcode := by
  rw [after_succ_of_next h, step_of_opcode hop hs]

theorem drive_eq_outcome_after (fuel : Nat) (m : Machine) :
    m.drive frame spawn fuel = (m.after frame spawn fuel).outcome := by
  induction fuel generalizing m with
  | zero => rfl
  | succ fuel ih =>
    rw [drive, Nat.add_comm, after_add]
    change _ = ((m.step frame spawn).andThen _).outcome
    cases m.step frame spawn with
    | next m' => exact ih m'
    | halt r m' => rfl

theorem of_after_succ_next {m m' : Machine} {n : Nat}
    (h : m.after frame spawn (n + 1) = .next m') :
    ∃ m₀, m.after frame spawn n = .next m₀ ∧ m₀.step frame spawn = .next m' := by
  rw [after] at h
  cases h₀ : m.after frame spawn n with
  | next m₀ =>
    rw [h₀] at h
    exact ⟨m₀, rfl, h⟩
  | halt r m₀ =>
    rw [h₀] at h
    cases h

theorem steps_of_after_next {m m' : Machine} {n : Nat} (h : m.after frame spawn n = .next m') :
    m.steps + n ≤ m'.steps := by
  induction n generalizing m' with
  | zero =>
    cases h
    exact Nat.le_refl _
  | succ n ih =>
    obtain ⟨m₀, h₀, hstep⟩ := of_after_succ_next h
    exact Nat.lt_of_le_of_lt (ih h₀) (steps_of_step_next hstep)

/-- The limit on steps ends every frame. -/
theorem after_halts {m : Machine} {n : Nat} (h : stepLimit ≤ m.steps + n) :
    ∃ r m', m.after frame spawn (n + 1) = .halt r m' := by
  cases hn : m.after frame spawn (n + 1) with
  | halt r m' => exact ⟨r, m', rfl⟩
  | next m' =>
    obtain ⟨m₀, h₀, hstep⟩ := of_after_succ_next hn
    obtain ⟨_, _, hs, _⟩ := of_step_next hstep
    have := steps_of_after_next h₀
    omega

/-- Behind so many steps the frame performs an instruction of this operation and goes on. -/
def Completes (frame : Frame) (spawn : Option (List UInt8 → Outcome)) (op : Operation) (k : Nat) :
    Prop :=
  ∃ m m' opcode, ({} : Machine).after frame spawn k = .next m ∧
    frame.code[m.pc]? = some opcode ∧ Operation.ofByte opcode = op ∧
      m.step frame spawn = .next m'

/-- More steps than the limit allows change nothing. -/
theorem after_eq_of_limit {m : Machine} {n b : Nat} (h : stepLimit ≤ m.steps + n)
    (hle : n + 1 ≤ b) : m.after frame spawn b = m.after frame spawn (n + 1) := by
  obtain ⟨r, m', hhalt⟩ : ∃ r m', m.after frame spawn (n + 1) = .halt r m' := after_halts h
  rw [hhalt, after_of_halt hhalt hle]

theorem steps_of_after_halt {m m' : Machine} {r : Halt} {n : Nat}
    (h : m.after frame spawn n = .halt r m') : m.steps < m'.steps := by
  induction n with
  | zero => cases h
  | succ n ih =>
    rw [after] at h
    cases hlast : m.after frame spawn n with
    | next m₁ =>
      rw [hlast] at h
      have hsteps := (of_step_halt h).2
      have := steps_of_after_next hlast
      omega
    | halt r' m₁ =>
      rw [hlast] at h
      cases h
      exact ih hlast

/-- A frame has taken fewer steps before its last one than it has in the end. -/
theorem steps_lt_of_after_halt {m m' m₀ : Machine} {r : Halt} {k n : Nat}
    (hk : m.after frame spawn k = .next m₀) (hn : m.after frame spawn n = .halt r m') :
    m₀.steps < m'.steps := by
  have hle : k ≤ n := by
    by_cases hlt : n < k
    · rw [after_of_halt hn (Nat.le_of_lt hlt)] at hk
      cases hk
    · exact Nat.le_of_not_lt hlt
  obtain ⟨d, rfl⟩ := Nat.le.dest hle
  rw [after_add_of_next hk] at hn
  exact steps_of_after_halt hn

/-- A frame stands only where the walk of its code gets to. -/
theorem reaches_of_after_next {code : List UInt8} {env : Environment} {m m' : Machine} {n : Nat}
    (hm : Reaches code m.pc) (h : m.after (.ofCode code env) spawn n = .next m') :
    Reaches code m'.pc := by
  induction n generalizing m' with
  | zero =>
    cases h
    exact hm
  | succ n ih =>
    obtain ⟨m₀, h₀, hstep⟩ := of_after_succ_next h
    obtain ⟨opcode, hop, _, _, hp⟩ := of_step_next hstep
    cases hp with
    | onward hpc _ _ =>
      rw [hpc]
      rw [Frame.getElem?_code_ofCode] at hop
      exact (ih h₀).next hop
    | jumped _ hdest _ _ => exact (isDestination_ofCode.mp hdest).1

/-- A frame performs only operations that the walk of its code gets to. -/
theorem not_completes_of_forall {code : List UInt8} {env : Environment} {op : Operation}
    (h : ∀ i ∈ instructions code, Operation.ofByte i.opcode ≠ op) (k : Nat) :
    ¬ Completes (.ofCode code env) spawn op k := by
  rintro ⟨m, m', opcode, hm, hop, hread, _⟩
  rw [Frame.getElem?_code_ofCode] at hop
  obtain ⟨i, hi, _, rfl⟩ := (reaches_of_after_next .start hm).exists_instruction hop
  exact h i hi hread

/-- One more step records the jump that it takes, and only to a destination. -/
theorem jumps_after_succ (frame : Frame) (spawn : Option (List UInt8 → Outcome)) (m : Machine)
    (n : Nat) :
    (m.after frame spawn (n + 1)).outcome.jumps = (m.after frame spawn n).outcome.jumps ∨
      ∃ m₀ opcode offset, m.after frame spawn n = .next m₀ ∧
        frame.code[m₀.pc]? = some opcode ∧
        (Operation.ofByte opcode = .jump ∨ Operation.ofByte opcode = .jumpIf) ∧
        frame.isDestination offset = true ∧
        (m.after frame spawn (n + 1)).outcome.jumps =
          (m.after frame spawn n).outcome.jumps ++ [offset] := by
  rw [after]
  cases hn : m.after frame spawn n with
  | halt r m₀ => exact .inl rfl
  | next m₀ =>
    change (m₀.step frame spawn).outcome.jumps = m₀.jumps.toList ∨ _
    cases hstep : m₀.step frame spawn with
    | halt r m' => exact .inl (congrArg Array.toList (of_step_halt hstep).1)
    | next m' =>
      obtain ⟨opcode, hop, _, _, hp⟩ := of_step_next hstep
      cases hp with
      | onward _ hjumps _ => exact .inl (congrArg Array.toList hjumps)
      | jumped hjump hdest hjumps _ =>
        refine .inr ⟨m₀, opcode, m'.pc, rfl, hop, hjump, hdest, ?_⟩
        change (m₀.step frame spawn).outcome.jumps = m₀.jumps.toList ++ [m'.pc]
        rw [hstep, Transition.outcome, hjumps, Array.toList_push]

/-- Jumps taken stay recorded. -/
theorem jumps_prefix_after (frame : Frame) (spawn : Option (List UInt8 → Outcome)) (m : Machine)
    (n : Nat) : m.jumps.toList <+: (m.after frame spawn n).outcome.jumps := by
  induction n with
  | zero => exact List.prefix_rfl
  | succ n ih =>
    rcases jumps_after_succ frame spawn m n with hsame | ⟨_, _, offset, _, _, _, _, hmore⟩
    · rw [hsame]
      exact ih
    · rw [hmore]
      exact ih.trans (List.prefix_append _ _)

end Machine

def Environment.spawn (env : Environment) : Option (List UInt8 → Outcome) :=
  some fun created => runFrame env.push0 (depthLimit - 2) created []

/-- A run is the steps of its outermost frame, as many as the limit allows and one more. -/
theorem run_eq_outcome_after (code : List UInt8) (env : Environment) :
    run code env =
      (Machine.after (.ofCode code env) env.spawn {} (stepLimit + 1)).outcome := by
  rw [← Machine.drive_eq_outcome_after]
  rfl

end ImageLinker.Evm
