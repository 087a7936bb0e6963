import Mathlib.Data.List.Basic
import Mathlib.Data.List.ModifyLast
import ImageLinker.Proofs.Tiling

/-!
How the walk of two codes in a row goes: through the first one, whose last instruction takes the
data that it lacks from the second, and then through what is left of the second one as if that stood
alone.
-/
namespace ImageLinker.Evm

def lacking (code : List UInt8) : Nat :=
  match (instructions code).getLast? with
  | none => 0
  | some last => Opcode.immediateLength last.opcode - last.immediate.length

namespace Instruction

def extend (more : List UInt8) (i : Instruction) : Instruction :=
  { i with immediate := i.immediate ++ more }

def moved (n : Nat) (i : Instruction) : Instruction := { i with offset := i.offset + n }

end Instruction

theorem walkEnd_eq_length_add_lacking (code : List UInt8) :
    walkEnd code = code.length + lacking code := by
  unfold walkEnd lacking
  cases hlast : (instructions code).getLast? with
  | none =>
    have hend := length_le_walkEnd code
    unfold walkEnd at hend
    rw [hlast] at hend
    exact (Nat.le_zero.mp hend).symm
  | some last =>
    obtain ⟨_, hop, himmediate⟩ := (mem_instructions last).mp (List.mem_of_getLast? hlast)
    have hlt := (List.getElem?_eq_some_iff.mp hop).1
    have hend := length_le_walkEnd code
    unfold walkEnd at hend
    rw [hlast] at hend
    dsimp only at hend ⊢
    have hlength : last.immediate.length = code.length - (last.offset + 1) := by
      rw [himmediate, List.length_take, List.length_drop]
      omega
    omega

/-- Offsets count from where the walk begins. -/
theorem instructionsFrom_add (offset n : Nat) (code : List UInt8) :
    instructionsFrom (offset + n) code =
      (instructionsFrom offset code).map (Instruction.moved n) := by
  fun_induction instructionsFrom offset code with
  | case1 offset => rw [instructionsFrom_nil, List.map_nil]
  | case2 offset opcode rest width instruction ih =>
    have hnext : (Instruction.moved n instruction).next = instruction.next + n := by
      simp only [Instruction.next, Instruction.moved]
      omega
    rw [instructionsFrom, List.map_cons, ← ih, ← hnext]
    rfl

/-- Data that reaches past a code goes on in what stands behind it. -/
theorem take_drop_append {a : List UInt8} {p : Nat} (hp : p ≤ a.length) (width : Nat)
    (b : List UInt8) : ((a ++ b).drop p).take width =
      (a.drop p).take width ++ b.take (width - (a.length - p)) := by
  rw [List.drop_append_of_le_length hp, List.take_append, List.length_drop]

theorem modifyLast_cons {α : Type} (f : α → α) (x : α) {list : List α} (h : list ≠ []) :
    (x :: list).modifyLast f = x :: list.modifyLast f :=
  List.modifyLast_append_of_right_ne_nil f [x] list h

/-- By induction on the walk of the first code from where it has got to. -/
theorem instructionsFrom_append {a : List UInt8} {p : Nat} (hp : Reaches a p) (b : List UInt8) :
    instructionsFrom p ((a ++ b).drop p) =
      (instructionsFrom p (a.drop p)).modifyLast (Instruction.extend (b.take (lacking a))) ++
        instructionsFrom (walkEnd a) ((a ++ b).drop (walkEnd a)) := by
  cases hop : a[p]? with
  | none =>
    have hlen : a.length ≤ p := List.getElem?_eq_none_iff.mp hop
    rw [walkEnd_eq_of_reaches hp hlen, List.drop_eq_nil_of_le hlen, instructionsFrom_nil]
    rfl
  | some opcode =>
    have hlt := (List.getElem?_eq_some_iff.mp hop).1
    have hop' : (a ++ b)[p]? = some opcode := by rw [List.getElem?_append_left hlt, hop]
    have ih := instructionsFrom_append (hp.next hop) b
    rw [instructionsFrom_drop hop', instructionsFrom_drop hop, ih, take_drop_append hlt]
    by_cases hnext : p + 1 + Opcode.immediateLength opcode < a.length
    · -- Not the last instruction of the first code: its data stays as it is.
      have hne : instructionsFrom (p + 1 + Opcode.immediateLength opcode)
          (a.drop (p + 1 + Opcode.immediateLength opcode)) ≠ [] := by
        rw [instructionsFrom_drop (List.getElem?_eq_getElem hnext)]
        exact List.cons_ne_nil _ _
      have hnone : Opcode.immediateLength opcode - (a.length - (p + 1)) = 0 := by omega
      rw [hnone, List.take_zero, List.append_nil, modifyLast_cons _ _ hne, List.cons_append]
    · have hend : a.length ≤ p + 1 + Opcode.immediateLength opcode := Nat.le_of_not_lt hnext
      have hlacking : Opcode.immediateLength opcode - (a.length - (p + 1)) = lacking a := by
        have hwalk := walkEnd_eq_of_reaches (hp.next hop) hend
        have hsum := walkEnd_eq_length_add_lacking a
        omega
      rw [List.drop_eq_nil_of_le hend, instructionsFrom_nil, hlacking]
      rfl
termination_by a.length - p

theorem instructions_append (a b : List UInt8) : instructions (a ++ b) =
    (instructions a).modifyLast (Instruction.extend (b.take (lacking a))) ++
      (instructions (b.drop (lacking a))).map (Instruction.moved (a.length + lacking a)) := by
  have hwalk := instructionsFrom_append (.start : Reaches a 0) b
  have hrest : (a ++ b).drop (a.length + lacking a) = b.drop (lacking a) := by
    rw [List.drop_append]
    simp
  rw [List.drop_zero, List.drop_zero, walkEnd_eq_length_add_lacking, hrest] at hwalk
  rw [instructions_eq, instructions_eq, instructions_eq, hwalk, ← instructionsFrom_add,
    Nat.zero_add]

/-- More data of the last instruction changes neither which opcodes there are nor where. -/
theorem destinations_modifyLast_extend (more : List UInt8) (list : List Instruction) :
    ((list.modifyLast (Instruction.extend more)).filter (·.opcode == Opcode.jumpDest)).map
        Instruction.offset =
      (list.filter (·.opcode == Opcode.jumpDest)).map Instruction.offset := by
  rcases List.eq_nil_or_concat' list with rfl | ⟨front, last, rfl⟩
  · rfl
  · rw [List.modifyLast_concat, List.filter_append, List.filter_append, List.map_append,
      List.map_append]
    congr 1
    by_cases hop : last.opcode = Opcode.jumpDest
    · simp [Instruction.extend, hop]
    · simp [Instruction.extend, hop]

theorem jumpDestinations_append (a b : List UInt8) : jumpDestinations (a ++ b) =
    jumpDestinations a ++ (jumpDestinations (b.drop (lacking a))).map
      (· + (a.length + lacking a)) := by
  have hmoved : (fun i : Instruction => i.opcode == Opcode.jumpDest) ∘
      Instruction.moved (a.length + lacking a) = (·.opcode == Opcode.jumpDest) := rfl
  rw [jumpDestinations, instructions_append, List.filter_append, List.map_append,
    destinations_modifyLast_extend, List.filter_map, hmoved, jumpDestinations, jumpDestinations,
    List.map_map, List.map_map]
  rfl

/-- The seam of two codes is a boundary just when the first one lacks no data. -/
theorem seam_mem_offsets {a b : List UInt8} (hb : b ≠ []) :
    a.length ∈ offsets (a ++ b) ↔ lacking a = 0 := by
  have hinside : a.length < (a ++ b).length := by
    rw [List.length_append]
    exact Nat.lt_add_of_pos_right (List.length_pos_iff.mpr hb)
  have hend := walkEnd_eq_length_add_lacking a
  rw [mem_offsets, reaches_seam]
  constructor
  · rintro ⟨hseam, _⟩
    omega
  · intro hnone
    exact ⟨by omega, hinside⟩

/-- Two codes in a row are walked one after the other, up to the data that the first one lacks. -/
theorem walk_append (a b : List UInt8) :
    instructions (a ++ b) =
      (instructions a).modifyLast (Instruction.extend (b.take (lacking a))) ++
        (instructions (b.drop (lacking a))).map (Instruction.moved (a.length + lacking a)) ∧
    (b ≠ [] → (a.length ∈ offsets (a ++ b) ↔ lacking a = 0)) ∧
    jumpDestinations (a ++ b) = jumpDestinations a ++
      (jumpDestinations (b.drop (lacking a))).map (· + (a.length + lacking a)) :=
  ⟨instructions_append a b, seam_mem_offsets, jumpDestinations_append a b⟩

/-- The data that a push lacks is taken from what follows it, over the boundary. -/
theorem walk_append_truncated : ([0x5b, 0x5b, 0x5b] : List UInt8) ≠ [] ∧
    instructions ([0x61] ++ [0x5b, 0x5b, 0x5b]) = [⟨0, 0x61, [0x5b, 0x5b]⟩, ⟨3, 0x5b, []⟩] ∧
      1 ∉ offsets ([0x61] ++ [0x5b, 0x5b, 0x5b]) := by
  have hne : ([0x5b, 0x5b, 0x5b] : List UInt8) ≠ [] := List.cons_ne_nil _ _
  have hfirst : instructions [0x61] = [⟨0, 0x61, []⟩] := by cbv
  have hrest : instructions [0x5b] = [⟨0, 0x5b, []⟩] := by cbv
  have hlacking : lacking [0x61] = 2 := by
    rw [lacking, hfirst]
    rfl
  obtain ⟨hwalk, hseam, _⟩ := walk_append [0x61] [0x5b, 0x5b, 0x5b]
  rw [hlacking] at hwalk hseam
  refine ⟨hne, ?_, fun h => absurd ((hseam hne).mp h) (by decide)⟩
  rw [hwalk, hfirst]
  change _ ++ (instructions [0x5b]).map _ = _
  rw [hrest]
  rfl

end ImageLinker.Evm
