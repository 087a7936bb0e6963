import Mathlib.Data.Nat.ModEq
import Mathlib.Tactic.Ring
import ImageLinker.Proofs.Words.Limbs

/-!
Sums, differences and products of words are those of their values modulo `2 ^ 256`: carries and
borrows ripple through the limbs, and the rows of a long multiplication add up to the product.
-/
namespace ImageLinker.Evm.Word

theorem toNat_toUInt64 (b : Bool) : b.toUInt64.toNat = b.toNat := by cases b <;> rfl

def carryOut (a b : UInt64) (carry : Bool) : Bool :=
  a + b < a || a + b + carry.toUInt64 < a + b

theorem addLimb_value (a b : UInt64) (carry : Bool) :
    (a + b + carry.toUInt64).toNat + 2 ^ 64 * (carryOut a b carry).toNat =
      a.toNat + b.toNat + carry.toNat := by
  have ha := a.toNat_lt
  have hb := b.toNat_lt
  have hcarry := carry.toNat_le
  simp only [carryOut, UInt64.lt_iff_toNat_lt, UInt64.toNat_add, toNat_toUInt64]
  -- only one of the sums overflows: the first leaves less than the largest limb if it does
  by_cases hfirst : (a.toNat + b.toNat) % 2 ^ 64 < a.toNat
  · simp only [hfirst, decide_true, Bool.true_or, Bool.toNat_true]
    omega
  · by_cases hsecond : ((a.toNat + b.toNat) % 2 ^ 64 + carry.toNat) % 2 ^ 64 <
        (a.toNat + b.toNat) % 2 ^ 64
    · simp only [hfirst, hsecond, decide_false, decide_true, Bool.false_or, Bool.toNat_true]
      omega
    · simp only [hfirst, hsecond, decide_false, Bool.or_false, Bool.toNat_false]
      omega

theorem valueOf_addLimbs {as bs : List UInt64} (h : as.length = bs.length) (carry : Bool) :
    valueOf (addLimbs as bs carry) ≡
      valueOf as + valueOf bs + carry.toNat [MOD 2 ^ (64 * as.length)] := by
  induction as generalizing bs carry with
  | nil => exact Nat.modEq_one
  | cons a as ih =>
    match bs, h with
    | b :: bs, h =>
      have hlimb := addLimb_value a b carry
      have hrest := ih (Nat.succ.inj h) (carryOut a b carry)
      rw [List.length_cons, two_pow_limbs_succ]
      calc
        valueOf (addLimbs (a :: as) (b :: bs) carry) = (a + b + carry.toUInt64).toNat +
            2 ^ 64 * valueOf (addLimbs as bs (carryOut a b carry)) := rfl
        _ ≡ (a + b + carry.toUInt64).toNat +
              2 ^ 64 * (valueOf as + valueOf bs + (carryOut a b carry).toNat) [MOD _] :=
          (hrest.mul_left' (2 ^ 64)).add_left _
        _ = valueOf (a :: as) + valueOf (b :: bs) + carry.toNat := by
          rw [valueOf_cons, valueOf_cons]
          omega

theorem toNat_add (a b : Word) : (a.add b).toNat = (a.toNat + b.toNat) % 2 ^ 256 := by
  have hlen : a.limbs.length = b.limbs.length := rfl
  rw [add, toNat_ofLimbs rfl, ← Nat.mod_eq_of_lt (valueOf_lt (addLimbs a.limbs b.limbs false))]
  exact valueOf_addLimbs hlen false

def borrowOut (a b : UInt64) (borrow : Bool) : Bool := a < b || a - b < borrow.toUInt64

theorem subLimb_value (a b : UInt64) (borrow : Bool) :
    (a - b - borrow.toUInt64).toNat + b.toNat + borrow.toNat =
      a.toNat + 2 ^ 64 * (borrowOut a b borrow).toNat := by
  have ha := a.toNat_lt
  have hb := b.toNat_lt
  have hborrow := borrow.toNat_le
  simp only [borrowOut, UInt64.lt_iff_toNat_lt, UInt64.toNat_sub, toNat_toUInt64]
  -- a first difference that borrows is not zero, so that the second one does not borrow again
  by_cases hfirst : a.toNat < b.toNat
  · simp only [hfirst, decide_true, Bool.true_or, Bool.toNat_true]
    omega
  · by_cases hsecond : (2 ^ 64 - b.toNat + a.toNat) % 2 ^ 64 < borrow.toNat
    · simp only [hfirst, hsecond, decide_false, decide_true, Bool.false_or, Bool.toNat_true]
      omega
    · simp only [hfirst, hsecond, decide_false, Bool.or_false, Bool.toNat_false]
      omega

theorem valueOf_subLimbs {as bs : List UInt64} (h : as.length = bs.length) (borrow : Bool) :
    valueOf (subLimbs as bs borrow) + valueOf bs + borrow.toNat ≡
      valueOf as [MOD 2 ^ (64 * as.length)] := by
  induction as generalizing bs borrow with
  | nil => exact Nat.modEq_one
  | cons a as ih =>
    match bs, h with
    | b :: bs, h =>
      have hlimb := subLimb_value a b borrow
      have hrest := ih (Nat.succ.inj h) (borrowOut a b borrow)
      rw [List.length_cons, two_pow_limbs_succ]
      calc
        valueOf (subLimbs (a :: as) (b :: bs) borrow) + valueOf (b :: bs) + borrow.toNat =
            (a - b - borrow.toUInt64).toNat +
              2 ^ 64 * valueOf (subLimbs as bs (borrowOut a b borrow)) +
              (b.toNat + 2 ^ 64 * valueOf bs) + borrow.toNat := rfl
        _ = a.toNat + 2 ^ 64 * (valueOf (subLimbs as bs (borrowOut a b borrow)) + valueOf bs +
              (borrowOut a b borrow).toNat) := by omega
        _ ≡ valueOf (a :: as) [MOD _] := (hrest.mul_left' (2 ^ 64)).add_left _

theorem toNat_sub_add (a b : Word) : (a.sub b).toNat + b.toNat ≡ a.toNat [MOD 2 ^ 256] := by
  have hlen : a.limbs.length = b.limbs.length := rfl
  rw [sub, toNat_ofLimbs rfl]
  exact valueOf_subLimbs hlen false

theorem toNat_sub (a b : Word) : ((a.sub b).toNat : Int) = (a.toNat - b.toNat : Int) % 2 ^ 256 := by
  have hlt := toNat_lt (a.sub b)
  have hsum : ((a.sub b).toNat + b.toNat) % 2 ^ 256 = a.toNat % 2 ^ 256 := toNat_sub_add a b
  omega

/-- Without a borrow the difference stays in the lowest limb. -/
theorem sub_ofNat {a b : Nat} (hle : b ≤ a) (h : a < 2 ^ 64) :
    (ofNat a).sub (ofNat b) = ofNat (a - b) := by
  have hsub := toNat_sub (ofNat a) (ofNat b)
  rw [toNat_ofNat h, toNat_ofNat (Nat.lt_of_le_of_lt hle h)] at hsub
  apply toNat_inj.mp
  rw [toNat_ofNat (Nat.lt_of_le_of_lt (Nat.sub_le a b) h)]
  omega

/-- Addition and subtraction are those of the values, whatever carries or borrows run through the
limbs, and each takes back the other. -/
theorem add_sub_exact (a b : Word) :
    (a.add b).toNat = (a.toNat + b.toNat) % 2 ^ 256 ∧
      ((a.sub b).toNat : Int) = (a.toNat - b.toNat : Int) % 2 ^ 256 ∧
      (a.add b).sub b = a ∧ (a.sub b).add b = a := by
  have ha := toNat_lt a
  refine ⟨toNat_add a b, toNat_sub a b, toNat_inj.mp ?_, toNat_inj.mp ?_⟩
  · have hsub := toNat_sub (a.add b) b
    rw [toNat_add] at hsub
    omega
  · rw [toNat_add, toNat_sub_add a b, Nat.mod_eq_of_lt ha]

/-- A carry that runs through two full limbs, and the borrow that takes it back. -/
example : (add ⟨-1, -1, -1, 0⟩ one) = ⟨0, 0, 0, 1⟩ ∧ (sub ⟨0, 0, 0, 1⟩ one) = ⟨-1, -1, -1, 0⟩ := by
  decide

theorem mulStep_lt (a b out : UInt64) {carry : Nat} (h : carry < 2 ^ 64) :
    mulStep a b out carry < 2 ^ 128 := by
  have ha : a.toNat ≤ 2 ^ 64 - 1 := Nat.le_sub_one_of_lt a.toNat_lt
  have hb : b.toNat ≤ 2 ^ 64 - 1 := Nat.le_sub_one_of_lt b.toNat_lt
  have hout := out.toNat_lt
  have hprod := Nat.mul_le_mul ha hb
  unfold mulStep
  omega

/-- The bound is met. -/
example : mulStep (-1) (-1) (-1) (2 ^ 64 - 1) = 2 ^ 128 - 1 := by decide

theorem mulStep_carry_lt (a b out : UInt64) {carry : Nat} (h : carry < 2 ^ 64) :
    mulStep a b out carry / 2 ^ 64 < 2 ^ 64 := by
  have hacc := mulStep_lt a b out h
  omega

theorem mulRow_cons (a b o : UInt64) (bs out : List UInt64) (carry : Nat) :
    mulRow a (b :: bs) (o :: out) carry = UInt64.ofNat (mulStep a b o carry) ::
      mulRow a bs out (mulStep a b o carry / 2 ^ 64) := rfl

theorem length_mulRow (a : UInt64) (bs out : List UInt64) (carry : Nat) :
    (mulRow a bs out carry).length = out.length := by
  induction bs generalizing out carry with
  | nil => rfl
  | cons b bs ih =>
    cases out with
    | nil => rfl
    | cons o out => rw [mulRow_cons, List.length_cons, List.length_cons, ih]

theorem valueOf_mulRow (a : UInt64) {bs out : List UInt64} (h : out.length ≤ bs.length)
    (carry : Nat) : valueOf (mulRow a bs out carry) ≡
      valueOf out + a.toNat * valueOf bs + carry [MOD 2 ^ (64 * out.length)] := by
  -- what a row carries past its last limb is a multiple of the modulus
  induction out generalizing bs carry with
  | nil => exact Nat.modEq_one
  | cons o out ih =>
    match bs, h with
    | b :: bs, h =>
      have hrest := ih (Nat.le_of_succ_le_succ h) (mulStep a b o carry / 2 ^ 64)
      rw [List.length_cons, two_pow_limbs_succ]
      calc
        valueOf (mulRow a (b :: bs) (o :: out) carry) = mulStep a b o carry % 2 ^ 64 +
            2 ^ 64 * valueOf (mulRow a bs out (mulStep a b o carry / 2 ^ 64)) := by
          rw [mulRow_cons, valueOf_cons, UInt64.toNat_ofNat']
        _ ≡ mulStep a b o carry % 2 ^ 64 + 2 ^ 64 * (valueOf out + a.toNat * valueOf bs +
              mulStep a b o carry / 2 ^ 64) [MOD _] := (hrest.mul_left' (2 ^ 64)).add_left _
        _ = mulStep a b o carry + 2 ^ 64 * (valueOf out + a.toNat * valueOf bs) := by omega
        _ = valueOf (o :: out) + a.toNat * valueOf (b :: bs) + carry := by
          rw [valueOf_cons, valueOf_cons, mulStep]
          ring

theorem length_mulRows (as bs out : List UInt64) : (mulRows as bs out).length = out.length := by
  fun_induction mulRows as bs out with
  | case1 a as bs out hrow => rw [← length_mulRow a bs out 0, hrow]
  | case2 a as bs out o rest hrow ih =>
    rw [← length_mulRow a bs out 0, hrow, List.length_cons, List.length_cons, ih]
  | case3 => rfl

theorem valueOf_mulRows {as bs out : List UInt64} (ha : out.length ≤ as.length)
    (hb : out.length ≤ bs.length) : valueOf (mulRows as bs out) ≡
      valueOf out + valueOf as * valueOf bs [MOD 2 ^ (64 * out.length)] := by
  -- a row settles the lowest limb for good, and the rows that are left work on the others
  induction as generalizing out with
  | nil =>
    rw [List.length_eq_zero_iff.mp (Nat.le_zero.mp ha)]
    exact Nat.modEq_one
  | cons a as ih =>
    have hvalue := valueOf_mulRow a hb 0
    have hlen := length_mulRow a bs out 0
    rw [mulRows]
    match hrow : mulRow a bs out 0 with
    | [] =>
      rw [hrow] at hlen
      rw [← hlen]
      exact Nat.modEq_one
    | o :: rest =>
      rw [hrow, List.length_cons] at hlen
      rw [hrow] at hvalue
      rw [← hlen] at ha hb
      have hrest := ih (Nat.le_of_succ_le_succ ha) (Nat.le_of_succ_le hb)
      rw [← hlen, two_pow_limbs_succ] at hvalue ⊢
      calc
        valueOf (o :: mulRows as bs rest) = o.toNat + 2 ^ 64 * valueOf (mulRows as bs rest) := rfl
        _ ≡ o.toNat + 2 ^ 64 * (valueOf rest + valueOf as * valueOf bs) [MOD _] :=
          (hrest.mul_left' (2 ^ 64)).add_left _
        _ = valueOf (o :: rest) + 2 ^ 64 * (valueOf as * valueOf bs) := by
          rw [valueOf_cons]
          ring
        _ ≡ valueOf out + a.toNat * valueOf bs + 0 + 2 ^ 64 * (valueOf as * valueOf bs) [MOD _] :=
          hvalue.add_right _
        _ = valueOf out + valueOf (a :: as) * valueOf bs := by
          rw [valueOf_cons]
          ring

theorem toNat_mul (a b : Word) : (a.mul b).toNat = a.toNat * b.toNat % 2 ^ 256 := by
  have hzero : valueOf (List.replicate 4 0) = 0 := by decide
  have hlen := length_mulRows a.limbs b.limbs (List.replicate 4 0)
  have ha : (List.replicate 4 (0 : UInt64)).length ≤ a.limbs.length := Nat.le_refl 4
  have hb : (List.replicate 4 (0 : UInt64)).length ≤ b.limbs.length := Nat.le_refl 4
  have hvalue := valueOf_mulRows ha hb
  rw [hzero, Nat.zero_add] at hvalue
  rw [mul, toNat_ofLimbs hlen, ← Nat.mod_eq_of_lt (valueOf_lt (mulRows _ _ _)), hlen]
  exact hvalue

end ImageLinker.Evm.Word
