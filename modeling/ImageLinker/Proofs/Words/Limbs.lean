import Mathlib.Algebra.Group.Nat.Defs
import ImageLinker.Evm.Word

/-! Words as numbers: the values of lists of limbs, their bounds and their bits. -/
namespace ImageLinker.Evm.Word

theorem valueOf_cons (a : UInt64) (as : List UInt64) :
    valueOf (a :: as) = a.toNat + 2 ^ 64 * valueOf as := rfl

theorem two_pow_limbs_succ (n : Nat) : 2 ^ (64 * (n + 1)) = 2 ^ 64 * 2 ^ (64 * n) := by
  rw [Nat.mul_succ, Nat.add_comm, Nat.pow_add]

theorem valueOf_lt (l : List UInt64) : valueOf l < 2 ^ (64 * l.length) := by
  induction l with
  | nil => decide
  | cons a as ih =>
    have ha := a.toNat_lt
    rw [valueOf_cons, List.length_cons, two_pow_limbs_succ]
    omega

theorem valueOf_inj {l l' : List UInt64} (hlen : l.length = l'.length)
    (h : valueOf l = valueOf l') : l = l' := by
  induction l generalizing l' with
  | nil => exact (List.length_eq_zero_iff.mp hlen.symm).symm
  | cons a as ih =>
    match l', hlen with
    | b :: bs, hlen =>
      have ha := a.toNat_lt
      have hb := b.toNat_lt
      rw [valueOf_cons, valueOf_cons] at h
      rw [UInt64.toNat_inj.mp (by omega : a.toNat = b.toNat),
        ih (Nat.succ.inj hlen) (by omega : valueOf as = valueOf bs)]

/-- Bit `i` of a list of limbs is a bit of limb `i / 64`. -/
theorem testBit_valueOf (l : List UInt64) (i : Nat) :
    (valueOf l).testBit i = (l[i / 64]?.getD 0).toNat.testBit (i % 64) := by
  induction l generalizing i with
  | nil =>
    change Nat.testBit 0 i = Nat.testBit 0 (i % 64)
    rw [Nat.zero_testBit, Nat.zero_testBit]
  | cons a as ih =>
    rw [valueOf_cons, Nat.add_comm, Nat.testBit_two_pow_mul_add _ a.toNat_lt]
    split
    next hlow =>
      rw [Nat.div_eq_of_lt hlow, Nat.mod_eq_of_lt hlow]
      rfl
    next hhigh =>
      have hdiv : i / 64 = (i - 64) / 64 + 1 := by omega
      rw [ih, hdiv, List.getElem?_cons_succ, show (i - 64) % 64 = i % 64 by omega]

theorem toNat_eq_limbs (w : Word) : w.toNat = w.limb0.toNat + 2 ^ 64 * (w.limb1.toNat +
    2 ^ 64 * (w.limb2.toNat + 2 ^ 64 * w.limb3.toNat)) := rfl

theorem toNat_lt (w : Word) : w.toNat < 2 ^ 256 := valueOf_lt w.limbs

theorem toNat_inj {a b : Word} : a.toNat = b.toNat ↔ a = b := by
  refine ⟨fun h => ?_, congrArg toNat⟩
  have hlimbs : a.limbs = b.limbs := valueOf_inj rfl h
  cases a
  cases b
  simpa [limbs] using hlimbs

theorem toNat_ofLimbs {l : List UInt64} (h : l.length = 4) : (ofLimbs l).toNat = valueOf l := by
  match l, h with
  | [_, _, _, _], _ => rfl

theorem testBit_limb (w : Word) {i j : Nat} (hj : j < 64) :
    (w.limb i).toNat.testBit j = w.toNat.testBit (64 * i + j) := by
  rw [toNat, testBit_valueOf, show (64 * i + j) / 64 = i by omega,
    show (64 * i + j) % 64 = j by omega]
  rfl

theorem testBit_ofLimbs_map (f : Nat → UInt64) (i : Nat) :
    (ofLimbs ((List.range 4).map f)).toNat.testBit i =
      (decide (i < 256) && (f (i / 64)).toNat.testBit (i % 64)) := by
  rw [toNat_ofLimbs (by simp), testBit_valueOf, List.getElem?_map]
  by_cases hi : i < 256
  · rw [List.getElem?_range (by omega)]
    simp [hi]
  · rw [List.getElem?_eq_none (by rw [List.length_range]; omega)]
    simp [hi]

theorem toIndex?_eq_some_iff {w : Word} {n : Nat} :
    w.toIndex? = some n ↔ w.toNat = n ∧ n < 2 ^ 64 := by
  have h0 := w.limb0.toNat_lt
  unfold toIndex?
  simp only [toNat_eq_limbs, ← UInt64.toNat_inj, UInt64.reduceToNat]
  split
  next hhigh =>
    obtain ⟨h1, h2, h3⟩ := hhigh
    rw [h1, h2, h3, Option.some.injEq]
    omega
  next hhigh =>
    refine ⟨nofun, fun ⟨heq, hlt⟩ => absurd ?_ hhigh⟩
    omega

theorem toIndex?_eq_none_iff {w : Word} : w.toIndex? = none ↔ 2 ^ 64 ≤ w.toNat := by
  rw [Option.eq_none_iff_forall_ne_some, ← Nat.not_lt]
  refine ⟨fun h hlt => h w.toNat (toIndex?_eq_some_iff.mpr ⟨rfl, hlt⟩), fun h n hn => ?_⟩
  obtain ⟨rfl, hlt⟩ := toIndex?_eq_some_iff.mp hn
  exact h hlt

theorem toNat_ofUInt64 (x : UInt64) : (ofUInt64 x).toNat = x.toNat := Nat.add_zero _

theorem toNat_ofNat {n : Nat} (h : n < 2 ^ 64) : (ofNat n).toNat = n := by
  rw [ofNat, toNat_ofUInt64, UInt64.toNat_ofNat', Nat.mod_eq_of_lt h]

theorem toIndex?_ofNat {n : Nat} (h : n < 2 ^ 64) : (ofNat n).toIndex? = some n :=
  toIndex?_eq_some_iff.mpr ⟨toNat_ofNat h, h⟩

end ImageLinker.Evm.Word
