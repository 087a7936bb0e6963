import Mathlib
import ImageLinker.Proofs.Deployment
import ImageLinker.Proofs.Words.Arithmetic

/-! The shim of two images finds out whether `PUSH0` exists and returns the image made for it. -/
namespace ImageLinker.Initcode

open Evm

/-- The deployed part of the shim as a compiler without `PUSH0` lays it out. -/
def legacyShim : List UInt8 :=
  [0x61, 0xff, 0xee, -- the length of an image
    0x60, 0x33, -- the offset of the first image
    0x62, 0x5f, 0x5f, 0xf3, 0x60, 0x00, 0x52, -- stores `PUSH0 PUSH0 RETURN`
    0x60, 0x03, 0x60, 0x1d, 0x60, 0x00, 0xf0, -- creates a frame that runs it
    0x60, 0x1a, 0x57, -- keeps the offset if that succeeds
    0x50, 0x80, 0x38, 0x03, -- else takes the last image
    0x5b, 0x81, 0x90, 0x60, 0x00, 0x39, -- copies the image
    0x60, 0x00, 0xf3] -- returns it

/-- The shim with its own length and the length of an image in place. -/
def patchedShim (n : Nat) : List UInt8 :=
  [0x61, UInt8.ofNat (n / 256), UInt8.ofNat n, 0x60, 0x23] ++ legacyShim.drop 5

theorem length_patchedShim (n : Nat) : (patchedShim n).length = 35 := rfl

theorem patchShim_legacyShim {n : Nat} (h : n ≤ maxImageLength) :
    patchShim legacyShim n = .ok (patchedShim n) := by
  have hoffsets : findAligned legacyShim offsetPlaceholder = [3] := by cbv
  have hlengths : findAligned legacyShim lengthPlaceholder = [0] := by cbv
  unfold patchShim
  rw [hoffsets, hlengths, lengthBytes_of_le h]
  rfl

/-- The code of the frame that the shim creates: `PUSH0 PUSH0 RETURN`. -/
def trialCode : List UInt8 := [0x5f, 0x5f, 0xf3]

/-- The frame that the shim creates ends well just when there is a `PUSH0`. -/
theorem runFrame_trialCode (push0 : Bool) : runFrame push0 (depthLimit - 2) trialCode [] =
    if push0 then ⟨.returned [], [], 3⟩ else ⟨.faulted (.invalidOpcode 0 0x5f), [], 1⟩ := by
  cases push0 <;> rfl

def trialWord : Word := .ofImmediate trialCode 3

def trialMemory : Memory := (({} : Memory).growTo 32).write 0 trialWord.toBytes

theorem read_trialMemory : trialMemory.read 29 3 = trialCode := by
  have hread : trialMemory.read (0 + 29) 3 = (trialWord.toBytes.drop 29).take 3 :=
    Memory.read_write (by decide) (by decide)
  rw [Nat.zero_add] at hread
  rw [hread]
  decide

theorem reserve?_trialMemory :
    trialMemory.reserve? (.ofNat 29) (.ofNat 3) = some (29, trialMemory) := by
  rw [Memory.reserve?_of_pos (by decide) (by decide), Memory.growTo_of_le]
  rw [trialMemory, Memory.size_write]
  decide

theorem isDestination_patchedShim (n : Nat) (rest : List UInt8) (env : Environment) :
    (Frame.ofCode (patchedShim n ++ rest) env).isDestination 26 = true := by
  have hmem : 26 ∈ jumpDestinations (patchedShim n) := by
    rw [show jumpDestinations (patchedShim n) = [26] by cbv]
    exact List.mem_singleton_self 26
  have hbyte : (Frame.ofCode (patchedShim n ++ rest) env).code[26]? = some 0x5b :=
    getElem?_code_of_begins (List.prefix_append _ _) (mem_jumpDestinations.mp hmem).2
  rw [Frame.getElem?_code_ofCode] at hbyte
  exact isDestination_ofCode.mpr ⟨(mem_jumpDestinations.mp hmem).1.append, hbyte⟩

section

variable {n : Nat} (rest : List UInt8) (env : Environment) (hlen : n ≤ maxImageLength)

include hlen

/-- Ahead of the creation the frame has stored the trial's code and holds the range of it, above
the length of the shim and that of an image. -/
theorem after_eight : ({} : Machine).after (.ofCode (patchedShim n ++ rest) env) env.spawn 8 =
    .next { pc := 18, stack := [.ofNat 0, .ofNat 29, .ofNat 3, .ofNat 35, .ofNat n]
            memory := trialMemory, steps := 8 } := by
  have hcode : patchedShim n <+: patchedShim n ++ rest := List.prefix_append _ _
  have h1 : ({} : Machine).after (.ofCode (patchedShim n ++ rest) env) env.spawn 1 =
      .next { pc := 3, stack := [.ofImmediate [UInt8.ofNat (n / 256), UInt8.ofNat n] 2]
              steps := 1 } :=
    Machine.after_push hcode (Machine.after_zero _ _ {}) rfl rfl
  rw [ofImmediate_length hlen] at h1
  have h2 : ({} : Machine).after (.ofCode (patchedShim n ++ rest) env) env.spawn 2 =
      .next { pc := 5, stack := [.ofNat 35, .ofNat n], steps := 2 } :=
    Machine.after_push_one hcode h1 rfl rfl rfl
  have h3 : ({} : Machine).after (.ofCode (patchedShim n ++ rest) env) env.spawn 3 =
      .next { pc := 9, stack := [trialWord, .ofNat 35, .ofNat n], steps := 3 } :=
    Machine.after_push hcode h2 rfl rfl
  have h4 : ({} : Machine).after (.ofCode (patchedShim n ++ rest) env) env.spawn 4 =
      .next { pc := 11, stack := [.ofNat 0, trialWord, .ofNat 35, .ofNat n], steps := 4 } :=
    Machine.after_push_one hcode h3 rfl rfl rfl
  have h5 : ({} : Machine).after (.ofCode (patchedShim n ++ rest) env) env.spawn 5 =
      .next { pc := 12, stack := [.ofNat 35, .ofNat n], memory := trialMemory, steps := 5 } :=
    Machine.after_mstore hcode h4 rfl rfl rfl (Memory.reserve?_zero (by decide))
  have h6 : ({} : Machine).after (.ofCode (patchedShim n ++ rest) env) env.spawn 6 =
      .next { pc := 14, stack := [.ofNat 3, .ofNat 35, .ofNat n], memory := trialMemory
              steps := 6 } :=
    Machine.after_push_one hcode h5 rfl rfl rfl
  have h7 : ({} : Machine).after (.ofCode (patchedShim n ++ rest) env) env.spawn 7 =
      .next { pc := 16, stack := [.ofNat 29, .ofNat 3, .ofNat 35, .ofNat n]
              memory := trialMemory, steps := 7 } :=
    Machine.after_push_one hcode h6 rfl rfl rfl
  exact Machine.after_push_one hcode h7 rfl rfl rfl

/-- The creation has left a word that is zero just when there is no `PUSH0`. -/
theorem after_ten : ({} : Machine).after (.ofCode (patchedShim n ++ rest) env) env.spawn 10 =
    .next { pc := 21
            stack := [.ofNat 26, if env.push0 then createdAddress else .zero, .ofNat 35, .ofNat n]
            memory := trialMemory, steps := if env.push0 then 13 else 11 } := by
  have hcode : patchedShim n <+: patchedShim n ++ rest := List.prefix_append _ _
  have h9 := Machine.after_create hcode (after_eight rest env hlen)
    (show (patchedShim n)[18]? = some 0xf0 from rfl) rfl rfl rfl reserve?_trialMemory
  rw [show (Word.ofNat 3).toNat = 3 from rfl, read_trialMemory, runFrame_trialCode] at h9
  cases hpush : env.push0 with
  | true =>
    rw [hpush] at h9
    exact Machine.after_push_one hcode h9 rfl rfl rfl
  | false =>
    rw [hpush] at h9
    exact Machine.after_push_one hcode h9 rfl rfl rfl

/-- From its jump destination on, the shim copies an image from an offset and returns it. -/
theorem after_copy_return {k o size steps : Nat} {memory : Memory} {jumps : Array Nat}
    {image : List UInt8}
    (h : ({} : Machine).after (.ofCode (patchedShim n ++ rest) env) env.spawn k =
      .next ⟨26, [.ofNat o, .ofNat n], memory, size, jumps, steps⟩)
    (hwindow : window (patchedShim n ++ rest).toArray o n = image) (ho : o < 2 ^ 64)
    (hsteps : steps + 7 ≤ stepLimit) :
    ∃ m, ({} : Machine).after (.ofCode (patchedShim n ++ rest) env) env.spawn (k + 7) =
        .halt (.returned image) m ∧ m.jumps = jumps ∧ m.steps = steps + 7 := by
  have hcode : patchedShim n <+: patchedShim n ++ rest := List.prefix_append _ _
  have hrange {m : Memory} : m.reserve? (.ofNat 0) (.ofNat n) = some (0, m.growTo n) :=
    Memory.reserve?_zero (Nat.le_trans hlen (by decide))
  have hlt' : n < 2 ^ 64 := Nat.lt_of_le_of_lt hlen (by decide)
  have hn : (Word.ofNat n).toNat = n := Word.toNat_ofNat hlt'
  have himage : image.length = n := by rw [← hwindow, length_window]
  have hlt {i : Nat} (hi : i < 7) : steps + i < stepLimit := by omega
  have h1 : ({} : Machine).after (.ofCode (patchedShim n ++ rest) env) env.spawn (k + 1) =
      .next ⟨27, [.ofNat o, .ofNat n], memory, size, jumps, steps + 1⟩ :=
    Machine.after_jumpDest hcode h rfl rfl (hlt (by decide : 0 < 7))
  have h2 : ({} : Machine).after (.ofCode (patchedShim n ++ rest) env) env.spawn (k + 2) =
      .next ⟨28, [.ofNat n, .ofNat o, .ofNat n], memory, size, jumps, steps + 2⟩ :=
    Machine.after_dup hcode h1 rfl rfl rfl (Nat.le_of_ble_eq_true rfl) (hlt (by decide : 1 < 7))
  have h3 : ({} : Machine).after (.ofCode (patchedShim n ++ rest) env) env.spawn (k + 3) =
      .next ⟨29, [.ofNat o, .ofNat n, .ofNat n], memory, size, jumps, steps + 3⟩ :=
    Machine.after_swap_one hcode h2 rfl rfl rfl (hlt (by decide : 2 < 7))
  have h4 : ({} : Machine).after (.ofCode (patchedShim n ++ rest) env) env.spawn (k + 4) =
      .next ⟨31, [.ofNat 0, .ofNat o, .ofNat n, .ofNat n], memory, size, jumps, steps + 4⟩ :=
    Machine.after_push_one hcode h3 rfl rfl rfl (Nat.le_of_ble_eq_true rfl)
      (hlt (by decide : 3 < 7))
  have h5 := Machine.after_copy hcode h4 rfl rfl rfl hrange (hlt (by decide : 4 < 7))
  rw [Frame.copied_ofNat ho hlt', show (Frame.ofCode (patchedShim n ++ rest) env).source .code =
    (patchedShim n ++ rest).toArray from rfl, hwindow] at h5
  have h6 : ({} : Machine).after (.ofCode (patchedShim n ++ rest) env) env.spawn (k + 6) =
      .next ⟨34, [.ofNat 0, .ofNat n], (memory.growTo n).write 0 image, size, jumps, steps + 6⟩ :=
    Machine.after_push_one hcode h5 rfl rfl rfl (Nat.le_of_ble_eq_true rfl)
      (hlt (by decide : 5 < 7))
  have h7 := Machine.after_ret hcode h6 rfl rfl rfl hrange (hlt (by decide : 6 < 7))
  rw [hn, Memory.read_growTo_write himage] at h7
  exact ⟨_, h7, rfl, rfl⟩

/-- With `PUSH0` the shim jumps and returns the image right behind it. -/
theorem run_patchedShim_push0 {push0 legacy : List UInt8} (hpush : env.push0 = true)
    (hp : push0.length = n) (hrest : rest = push0 ++ legacy) :
    run (patchedShim n ++ rest) env = ⟨.returned push0, [26], 21⟩ := by
  have hcode : patchedShim n <+: patchedShim n ++ rest := List.prefix_append _ _
  have h10 := after_ten rest env hlen
  rw [hpush] at h10
  have h11 : ({} : Machine).after (.ofCode (patchedShim n ++ rest) env) env.spawn 11 =
      .next ⟨26, [.ofNat 35, .ofNat n], trialMemory, 0, #[26], 14⟩ :=
    Machine.after_jumpIf hcode h10 rfl rfl rfl (Word.toIndex?_ofNat (by decide))
      (isDestination_patchedShim n rest env)
  have hwindow : window (patchedShim n ++ rest).toArray 35 n = push0 := by
    have hsize : 35 + n ≤ (patchedShim n ++ rest).length := by
      rw [hrest, List.length_append, List.length_append, length_patchedShim, hp]
      omega
    rw [window_toArray hsize (Nat.le_trans (Nat.add_le_add_left hlen 35) (by decide)),
      List.drop_left' (length_patchedShim n), hrest, List.take_left' hp]
  obtain ⟨m, h18, hjumps, hsteps⟩ :=
    after_copy_return rest env hlen h11 hwindow (by decide) (by decide)
  rw [run_eq_outcome_after, Machine.after_of_halt h18 (Nat.le_of_ble_eq_true rfl),
    Transition.outcome, hjumps, hsteps]

/-- Without `PUSH0` the shim counts back from the end of its code and returns the last image. -/
theorem run_patchedShim_legacy {push0 legacy : List UInt8} (hpush : env.push0 = false)
    (hp : push0.length = n) (hl : legacy.length = n) (hrest : rest = push0 ++ legacy) :
    run (patchedShim n ++ rest) env = ⟨.returned legacy, [], 23⟩ := by
  have hcode : patchedShim n <+: patchedShim n ++ rest := List.prefix_append _ _
  have hsize : (patchedShim n ++ rest).length = 35 + n + n := by
    rw [hrest, List.length_append, List.length_append, length_patchedShim, hp, hl, Nat.add_assoc]
  have h10 := after_ten rest env hlen
  rw [hpush] at h10
  have h11 : ({} : Machine).after (.ofCode (patchedShim n ++ rest) env) env.spawn 11 =
      .next ⟨22, [.ofNat 35, .ofNat n], trialMemory, 0, #[], 12⟩ :=
    Machine.after_jumpIf hcode h10 rfl rfl rfl (Word.toIndex?_ofNat (by decide))
      (isDestination_patchedShim n rest env)
  have h12 : ({} : Machine).after (.ofCode (patchedShim n ++ rest) env) env.spawn 12 =
      .next ⟨23, [.ofNat n], trialMemory, 0, #[], 13⟩ :=
    Machine.after_pop hcode h11 rfl rfl rfl
  have h13 : ({} : Machine).after (.ofCode (patchedShim n ++ rest) env) env.spawn 13 =
      .next ⟨24, [.ofNat n, .ofNat n], trialMemory, 0, #[], 14⟩ :=
    Machine.after_dup hcode h12 rfl rfl rfl
  have h14 : ({} : Machine).after (.ofCode (patchedShim n ++ rest) env) env.spawn 14 =
      .next ⟨25, [.ofNat (patchedShim n ++ rest).length, .ofNat n, .ofNat n], trialMemory, 0, #[],
        15⟩ :=
    Machine.after_read hcode h13 rfl rfl
  have h15 : ({} : Machine).after (.ofCode (patchedShim n ++ rest) env) env.spawn 15 =
      .next ⟨26, [(Word.ofNat (patchedShim n ++ rest).length).sub (.ofNat n), .ofNat n],
        trialMemory, 0, #[], 16⟩ :=
    Machine.after_binary hcode h14 rfl rfl rfl
  unfold maxImageLength at hlen
  rw [hsize, Word.sub_ofNat (by omega) (by omega), Nat.add_sub_cancel] at h15
  have hwindow : window (patchedShim n ++ rest).toArray (35 + n) n = legacy := by
    have hlast : 35 + n + n ≤ UInt64.size := Nat.le_trans (by omega) (by decide : 200000 ≤ _)
    rw [window_toArray (Nat.le_of_eq hsize.symm) hlast, ← List.drop_drop,
      List.drop_left' (length_patchedShim n), hrest, List.drop_left' hp, ← hl, List.take_length]
  obtain ⟨m, h22, hjumps, hsteps⟩ :=
    after_copy_return rest env hlen h15 hwindow (by omega) (by decide)
  rw [run_eq_outcome_after, Machine.after_of_halt h22 (Nat.le_of_ble_eq_true rfl),
    Transition.outcome, hjumps, hsteps]

end

/-- The shim can be patched for images of every length that fits its push, and in front of two
images of that length it returns the first one where there is a `PUSH0` and else the second one. -/
theorem legacyShim_selects {n : Nat} {push0 legacy : List UInt8} (hn : n ≤ 65535)
    (hp : push0.length = n) (hl : legacy.length = n) :
    ∃ patched, patchShim legacyShim n = .ok patched ∧
      ∀ env, run (patched ++ push0 ++ legacy) env =
        if env.push0 then ⟨.returned push0, [26], 21⟩ else ⟨.returned legacy, [], 23⟩ := by
  refine ⟨_, patchShim_legacyShim hn, fun env => ?_⟩
  rw [List.append_assoc]
  cases hpush : env.push0 with
  | true => exact run_patchedShim_push0 _ env hn hpush hp rfl
  | false => exact run_patchedShim_legacy _ env hn hpush hp hl rfl

theorem legacyShim_selects_one : ∃ patched, patchShim legacyShim 1 = .ok patched ∧
    ∀ env, run (patched ++ [0x5b] ++ [0xfe]) env =
      if env.push0 then ⟨.returned [0x5b], [26], 21⟩ else ⟨.returned [0xfe], [], 23⟩ :=
  legacyShim_selects (by decide) rfl rfl

end ImageLinker.Initcode
