import ImageLinker.Initcode
import ImageLinker.Proofs.Walk

/-!
Where compiler output is split: at its first `RETURN` instruction with `INVALID` behind it. Bytes
behind the split do not matter, and neither do pairs of these bytes in the data of a push.
-/
namespace ImageLinker.Initcode

open Evm

def Unsplit (code : List UInt8) : Prop :=
  ∀ i ∈ instructions code, i.opcode = Opcode.ret → code[i.offset + 1]? ≠ some Opcode.invalid

/-- Code that can stand in front of the split. -/
structure IsPrologue (code : List UInt8) : Prop where
  complete : walkEnd code = code.length
  unsplit : Unsplit code

/-- The walk of a code meets `RETURN` at an offset, and `INVALID` is in the byte behind it. -/
structure SplitsAt (code : List UInt8) (o : Nat) : Prop where
  reaches : Reaches code o
  ret : code[o]? = some Opcode.ret
  invalid : code[o + 1]? = some Opcode.invalid

variable {code p r : List UInt8} {o : Nat}

theorem SplitsAt.add_one_lt (h : SplitsAt code o) : o + 1 < code.length :=
  (List.getElem?_eq_some_iff.mp h.invalid).1

theorem SplitsAt.append (h : SplitsAt p o) : SplitsAt (p ++ r) o where
  reaches := h.reaches.append
  ret := by rw [List.getElem?_append_left (Nat.lt_of_succ_lt h.add_one_lt), h.ret]
  invalid := by rw [List.getElem?_append_left h.add_one_lt, h.invalid]

theorem SplitsAt.of_append (h : SplitsAt (p ++ r) o) (ho : o + 1 < p.length) : SplitsAt p o where
  reaches := h.reaches.of_append (Nat.le_of_lt (Nat.lt_of_succ_lt ho))
  ret := by rw [← h.ret, List.getElem?_append_left (Nat.lt_of_succ_lt ho)]
  invalid := by rw [← h.invalid, List.getElem?_append_left ho]

/-- A code can be split behind a part of it that has all of its data. -/
theorem splitsAt_seam :
    SplitsAt (p ++ ([Opcode.ret, Opcode.invalid] ++ r)) p.length ↔ walkEnd p = p.length := by
  refine ⟨fun h => reaches_seam.mp h.reaches, fun h => ⟨reaches_seam.mpr h, ?_, ?_⟩⟩
  · simp
  · simp

theorem SplitsAt.exists_eq_append (h : SplitsAt code o) :
    ∃ p, p.length = o ∧ code = p ++ ([Opcode.ret, Opcode.invalid] ++ code.drop (o + 2)) := by
  obtain ⟨hlt, hret⟩ := List.getElem?_eq_some_iff.mp h.ret
  obtain ⟨hlt', hinvalid⟩ := List.getElem?_eq_some_iff.mp h.invalid
  have hrest : code.drop o = [Opcode.ret, Opcode.invalid] ++ code.drop (o + 2) := by
    rw [List.drop_eq_getElem_cons hlt, List.drop_eq_getElem_cons hlt', hret, hinvalid]
    rfl
  refine ⟨code.take o, ?_, ?_⟩
  · rw [List.length_take, Nat.min_eq_left (Nat.le_of_lt hlt)]
  · rw [← hrest, List.take_append_drop]

theorem prefix_drop_iff : [Opcode.ret, Opcode.invalid] <+: code.drop o ↔
    code[o]? = some Opcode.ret ∧ code[o + 1]? = some Opcode.invalid := by
  simp only [List.prefix_iff_getElem?, List.getElem?_drop]
  constructor
  · intro h
    exact ⟨h 0 (by decide), h 1 (by decide)⟩
  · rintro ⟨hret, hinvalid⟩ (_ | _ | k) hk
    · exact hret
    · exact hinvalid
    · exact absurd hk (Nat.not_lt_of_le (Nat.le_add_left 2 k))

theorem mem_findAligned_split :
    o ∈ findAligned code [Opcode.ret, Opcode.invalid] ↔ SplitsAt code o := by
  rw [mem_findAligned (List.cons_ne_nil _ _), prefix_drop_iff]
  constructor
  · rintro ⟨⟨i, hi, rfl⟩, hret, hinvalid⟩
    exact ⟨((mem_instructions i).mp hi).1, hret, hinvalid⟩
  · rintro ⟨hr, hret, hinvalid⟩
    obtain ⟨i, hi, hoffset, _⟩ := hr.exists_instruction hret
    exact ⟨⟨i, hi, hoffset⟩, hret, hinvalid⟩

theorem unsplit_iff : Unsplit code ↔ ∀ o, ¬ SplitsAt code o := by
  constructor
  · rintro h o ⟨hr, hret, hinvalid⟩
    obtain ⟨i, hi, rfl, hop⟩ := hr.exists_instruction hret
    exact h i hi hop hinvalid
  · intro h i hi hop hinvalid
    obtain ⟨hr, hget, _⟩ := (mem_instructions i).mp hi
    exact h i.offset ⟨hr, hop ▸ hget, hinvalid⟩

theorem deployedCode_eq_none_iff : deployedCode code = none ↔ Unsplit code := by
  rw [deployedCode, Option.map_eq_none_iff, List.head?_eq_none_iff,
    List.eq_nil_iff_forall_not_mem, unsplit_iff]
  simp only [mem_findAligned_split]

/-- A code is split at the first of the offsets at which it can be. -/
theorem deployedCode_eq_some_iff : deployedCode code = some r ↔
    ∃ o, SplitsAt code o ∧ (∀ o', SplitsAt code o' → o ≤ o') ∧ code.drop (o + 2) = r := by
  rw [deployedCode, Option.map_eq_some_iff]
  simp only [head?_findAligned, mem_findAligned_split, and_assoc]

theorem IsPrologue.deployedCode_append (hp : IsPrologue p) (r : List UInt8) :
    deployedCode (p ++ [Opcode.ret, Opcode.invalid] ++ r) = some r := by
  rw [List.append_assoc]
  refine deployedCode_eq_some_iff.mpr
    ⟨p.length, splitsAt_seam.mpr hp.complete, fun o h => Nat.le_of_not_lt fun hlt => ?_, ?_⟩
  · have hle : o + 1 ≤ p.length := hlt
    rcases Nat.lt_or_eq_of_le hle with hinside | hseam
    · exact unsplit_iff.mp hp.unsplit o (h.of_append hinside)
    · -- behind a `RETURN` that ends the prologue there is the `RETURN` of the pair
      have hinvalid := h.invalid
      rw [hseam, List.getElem?_append_right (Nat.le_refl _), Nat.sub_self] at hinvalid
      change some Opcode.ret = some Opcode.invalid at hinvalid
      exact absurd hinvalid (by decide)
  · simp [List.drop_append]

/-- What is in front of the split of a code is a prologue. -/
theorem exists_isPrologue (h : deployedCode code = some r) :
    ∃ p, IsPrologue p ∧ code = p ++ [Opcode.ret, Opcode.invalid] ++ r := by
  obtain ⟨o, hsplit, hfirst, rfl⟩ := deployedCode_eq_some_iff.mp h
  obtain ⟨p, rfl, hcode⟩ := hsplit.exists_eq_append
  refine ⟨p, ⟨?_, unsplit_iff.mpr fun o h => ?_⟩, by rw [List.append_assoc]; exact hcode⟩
  · rw [hcode] at hsplit
    exact splitsAt_seam.mp hsplit
  · have hinside := h.add_one_lt
    have hle : p.length ≤ o := by
      refine hfirst o ?_
      rw [hcode]
      exact h.append
    omega

/-- Compiler output is split behind a prologue, wherever one is followed by the pair, and nowhere
else; there is nothing to split just when no instruction is such a `RETURN`. -/
theorem deployedCode_exact :
    (∀ p r, IsPrologue p → deployedCode (p ++ [Opcode.ret, Opcode.invalid] ++ r) = some r) ∧
    (∀ code r, deployedCode code = some r →
      ∃ p, IsPrologue p ∧ code = p ++ [Opcode.ret, Opcode.invalid] ++ r) ∧
    ∀ code, deployedCode code = none ↔
      ∀ i ∈ instructions code, i.opcode = Opcode.ret →
        code[i.offset + 1]? ≠ some Opcode.invalid :=
  ⟨fun _ r hp => hp.deployedCode_append r, fun _ _ h => exists_isPrologue h,
    fun _ => deployedCode_eq_none_iff⟩

/-- Neither the pair in the data of a push nor one that follows the split is split at. -/
theorem deployedCode_exact_pushed_pair :
    IsPrologue [Opcode.push2, 0xf3, 0xfe] ∧
      deployedCode [Opcode.push2, 0xf3, 0xfe, Opcode.ret, Opcode.invalid, 0xf3, 0xfe, 0xaa] =
        some [0xf3, 0xfe, 0xaa] := by
  have hinstructions : instructions [Opcode.push2, 0xf3, 0xfe] =
      [⟨0, Opcode.push2, [0xf3, 0xfe]⟩] := by cbv
  have hprologue : IsPrologue [Opcode.push2, 0xf3, 0xfe] := by
    refine ⟨by rw [walkEnd, hinstructions]; rfl, ?_⟩
    rw [Unsplit, hinstructions]
    decide
  exact ⟨hprologue, deployedCode_exact.1 [Opcode.push2, 0xf3, 0xfe] [0xf3, 0xfe, 0xaa] hprologue⟩

end ImageLinker.Initcode
