import ImageLinker.Proofs.Checks.Basic
import ImageLinker.Proofs.Words.Arithmetic

/-!
Long multiplication in 128 bits, with a check behind every product and every sum. No check fails,
and the words that come out are the exact products modulo `2 ^ 256`.
-/
namespace ImageLinker.Checked

open Evm Evm.Word

def wide (n : Nat) : Checked Nat := if n < 2 ^ 128 then .ok n else breach (.tooLarge n)

/-- The accumulator of one step: the product on top of the limb so far, then the carry. -/
def multiplyStep (a b out : UInt64) (carry : Nat) : Checked Nat := do
  let product ← wide (a.toNat * b.toNat)
  let sum ← wide (out.toNat + product)
  wide (sum + carry)

def multiplyRow (a : UInt64) : (bs out : List UInt64) → (carry : Nat) → Checked (List UInt64)
  | b :: bs, o :: out, carry => do
    let acc ← multiplyStep a b o carry
    return UInt64.ofNat acc :: (← multiplyRow a bs out (acc / 2 ^ 64))
  | _, out, _ => return out

def multiplyRows : (as bs out : List UInt64) → Checked (List UInt64)
  | a :: as, bs, out => do
    match ← multiplyRow a bs out 0 with
    | [] => return []
    | o :: rest => return o :: (← multiplyRows as bs rest)
  | [], _, out => return out

def multiply (a b : Word) : Checked Word := do
  return .ofLimbs (← multiplyRows a.limbs b.limbs (List.replicate 4 0))

theorem wide_eq {n : Nat} (h : n < 2 ^ 128) : wide n = .ok n := if_pos h

theorem multiplyStep_eq (a b out : UInt64) {carry : Nat} (h : carry < 2 ^ 64) :
    multiplyStep a b out carry = .ok (mulStep a b out carry) := by
  have hacc := mulStep_lt a b out h
  rw [mulStep] at hacc
  rw [multiplyStep, wide_eq (by omega), ok_bind, wide_eq (by omega), ok_bind, wide_eq hacc,
    mulStep]

/-- A carry into a step stays below one limb, and so the next one does. -/
theorem multiplyRow_eq (a : UInt64) (bs out : List UInt64) {carry : Nat} (h : carry < 2 ^ 64) :
    multiplyRow a bs out carry = .ok (mulRow a bs out carry) := by
  induction bs generalizing out carry with
  | nil => rfl
  | cons b bs ih =>
    cases out with
    | nil => rfl
    | cons o out =>
      rw [multiplyRow, multiplyStep_eq a b o h, ok_bind, ih out (mulStep_carry_lt a b o h), ok_bind,
        mulRow_cons]
      rfl

theorem multiplyRows_eq (as bs out : List UInt64) :
    multiplyRows as bs out = .ok (mulRows as bs out) := by
  induction as generalizing out with
  | nil => rfl
  | cons a as ih =>
    rw [multiplyRows, multiplyRow_eq a bs out (Nat.two_pow_pos 64), ok_bind, mulRows]
    cases mulRow a bs out 0 with
    | nil => rfl
    | cons o rest =>
      dsimp only
      rw [ih rest, ok_bind]
      rfl

/-- The product of two words is that of their values, and no accumulator of the multiplication
overflows 128 bits on the way. -/
theorem multiply_exact (a b : Word) :
    (a.mul b).toNat = a.toNat * b.toNat % 2 ^ 256 ∧ multiply a b = .ok (a.mul b) := by
  refine ⟨toNat_mul a b, ?_⟩
  rw [multiply, multiplyRows_eq, ok_bind]
  rfl

end ImageLinker.Checked
