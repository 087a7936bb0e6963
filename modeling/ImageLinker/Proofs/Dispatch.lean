import ImageLinker.Image
import ImageLinker.Proofs.Stepping
import ImageLinker.Proofs.Words.Shifts

/-! The run of the dispatcher, whatever follows it. -/
namespace ImageLinker

open Evm

/-- The first byte of the call's data, which reads as zero when there is none. -/
def Evm.Environment.selector (env : Environment) : Nat := (env.calldata.head?.getD 0).toNat

theorem Evm.Environment.selector_lt (env : Environment) : env.selector < 256 := UInt8.toNat_lt _

namespace Dispatch

/-- The first byte of the first word of the call's data is the selector. -/
theorem byteAt_callData (code : List UInt8) (env : Environment) :
    (Word.ofBytes ((Frame.ofCode code env).loaded .zero)).byteAt .zero = .ofNat env.selector := by
  have hloaded : (Frame.ofCode code env).loaded .zero = env.calldata[0]?.getD 0 ::
      (List.range 31).map fun i => env.calldata[i + 1]?.getD 0 := by
    have hwindow : (Frame.ofCode code env).loaded .zero = window env.calldata.toArray 0 32 := rfl
    rw [hwindow, window_of_le (by decide), List.range_succ_eq_map, List.map_cons, List.map_map]
    simp only [Function.comp_def, Nat.zero_add, List.getElem?_toArray, Nat.succ_eq_add_one]
  rw [hloaded, Word.byteAt_zero (by simp)]
  simp [Environment.selector, List.head?_eq_getElem?]

theorem selector_mul_capacity_lt (layout : Layout) (env : Environment) :
    env.selector * layout.capacity < 2 ^ 64 := by
  have hpow : 2 ^ layout.shift ≤ 2 ^ 13 := Nat.pow_le_pow_right (by decide) layout.shift_le
  exact Nat.lt_of_le_of_lt
    (Nat.mul_le_mul (Nat.le_of_lt_succ env.selector_lt) hpow) (by decide)

theorem shiftLeft_selector (layout : Layout) (env : Environment) :
    (Word.ofNat env.selector).shiftLeft (.ofNat layout.shift) =
      .ofNat (env.selector * layout.capacity) := by
  have hle := layout.shift_le
  exact Word.shiftLeft_ofNat (by omega) (selector_mul_capacity_lt layout env)

variable {layout : Layout} {code : List UInt8} {env : Environment}
  (hcode : dispatcher layout <+: code)

include hcode

/-- Six steps lead to the jump with the offset of the selected section on the stack. -/
theorem after_six : ({} : Machine).after (.ofCode code env) env.spawn 6 =
    .next { pc := 7, stack := [.ofNat (env.selector * layout.capacity)], steps := 6 } := by
  have hshift : (UInt8.ofNat layout.shift).toNat = layout.shift := by
    have hle := layout.shift_le
    rw [UInt8.toNat_ofNat', Nat.mod_eq_of_lt (by omega)]
  have h1 : ({} : Machine).after (.ofCode code env) env.spawn 1 =
      .next { pc := 1, stack := [.zero], steps := 1 } :=
    Machine.after_read hcode (Machine.after_zero _ _ {}) rfl rfl
  have h2 : ({} : Machine).after (.ofCode code env) env.spawn 2 = .next
      { pc := 2, stack := [.ofBytes ((Frame.ofCode code env).loaded .zero)], steps := 2 } := by
    rw [Machine.after_perform hcode h1 rfl (by decide), Machine.perform_callDataLoad rfl rfl]
    rfl
  have h3 : ({} : Machine).after (.ofCode code env) env.spawn 3 = .next
      { pc := 3, stack := [.zero, .ofBytes ((Frame.ofCode code env).loaded .zero)], steps := 3 } :=
    Machine.after_read hcode h2 rfl rfl
  have h4 : ({} : Machine).after (.ofCode code env) env.spawn 4 = .next
      { pc := 4, stack := [.ofNat env.selector], steps := 4 } := by
    rw [Machine.after_binary hcode h3 rfl rfl rfl, BinaryOp.eval, byteAt_callData]
  have h5 : ({} : Machine).after (.ofCode code env) env.spawn 5 = .next
      { pc := 6, stack := [.ofNat layout.shift, .ofNat env.selector], steps := 5 } := by
    rw [Machine.after_push_one hcode h4 rfl rfl rfl, hshift]
  rw [Machine.after_binary hcode h5 rfl rfl rfl, BinaryOp.eval, shiftLeft_selector]

/-- The state in which the dispatcher enters the selected section: nothing is left behind but seven
steps and the jump. -/
def entry (layout : Layout) (env : Environment) : Machine where
  pc := env.selector * layout.capacity
  jumps := #[env.selector * layout.capacity]
  steps := 7

theorem after_seven_of_isDestination
    (h : (Frame.ofCode code env).isDestination (env.selector * layout.capacity) = true) :
    ({} : Machine).after (.ofCode code env) env.spawn 7 = .next (entry layout env) := by
  rw [Machine.after_perform hcode (after_six hcode) rfl (by decide : 6 < stepLimit),
    Machine.perform_jump rfl rfl, Machine.jumpTo,
    Word.toIndex?_ofNat (selector_mul_capacity_lt layout env)]
  simp [h, entry]

/-- Any other offset is refused by the jump. -/
theorem after_seven_of_not_isDestination
    (h : (Frame.ofCode code env).isDestination (env.selector * layout.capacity) = false) :
    ({} : Machine).after (.ofCode code env) env.spawn 7 =
      .halt (.faulted (.badJump 7 (.ofNat (env.selector * layout.capacity))))
        { pc := 7, stack := [.ofNat (env.selector * layout.capacity)], steps := 7 } := by
  rw [Machine.after_perform hcode (after_six hcode) rfl (by decide : 6 < stepLimit),
    Machine.perform_jump rfl rfl, Machine.jumpTo,
    Word.toIndex?_ofNat (selector_mul_capacity_lt layout env)]
  simp [h, Machine.fault]

/-- A run behind a jump of the dispatcher is what the entered section makes of it. -/
theorem run_of_isDestination
    (h : (Frame.ofCode code env).isDestination (env.selector * layout.capacity) = true) :
    run code env =
      ((entry layout env).after (.ofCode code env) env.spawn (stepLimit - 6)).outcome := by
  rw [run_eq_outcome_after, show stepLimit + 1 = 7 + (stepLimit - 6) from rfl,
    Machine.after_add_of_next (after_seven_of_isDestination hcode h)]

theorem head?_jumps_of_isDestination
    (h : (Frame.ofCode code env).isDestination (env.selector * layout.capacity) = true) :
    (run code env).jumps.head? = some (env.selector * layout.capacity) := by
  obtain ⟨later, hlater⟩ := Machine.jumps_prefix_after (.ofCode code env) env.spawn
    (entry layout env) (stepLimit - 6)
  rw [run_of_isDestination hcode h, ← hlater]
  rfl

theorem run_of_not_isDestination
    (h : (Frame.ofCode code env).isDestination (env.selector * layout.capacity) = false) :
    run code env =
      ⟨.faulted (.badJump 7 (.ofNat (env.selector * layout.capacity))), [], 7⟩ := by
  rw [run_eq_outcome_after,
    Machine.after_of_halt (after_seven_of_not_isDestination hcode h) (by decide)]
  rfl

end Dispatch

end ImageLinker
