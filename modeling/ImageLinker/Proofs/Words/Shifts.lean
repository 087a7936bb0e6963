import ImageLinker.Proofs.Words.Limbs

/-!
Shifts of words multiply and divide by powers of two. The proofs go by bits: a bit of a shifted limb
is a bit of its own limb or of a neighbour, and in either case the one so many places away.
-/
namespace ImageLinker.Evm.Word

theorem testBit_limb_shiftLeft (a : UInt64) {k j : Nat} (hk : k < 64) (hj : j < 64) :
    (a <<< UInt64.ofNat k).toNat.testBit j = (decide (k ≤ j) && a.toNat.testBit (j - k)) := by
  rw [UInt64.toNat_shiftLeft, UInt64.toNat_ofNat', Nat.mod_eq_of_lt (Nat.lt_trans hk (by decide)),
    Nat.mod_eq_of_lt hk, Nat.testBit_mod_two_pow, Nat.testBit_shiftLeft]
  simp [hj]

theorem testBit_limb_shiftRight (a : UInt64) {k : Nat} (hk : k < 64) (j : Nat) :
    (a >>> UInt64.ofNat k).toNat.testBit j = a.toNat.testBit (k + j) := by
  rw [UInt64.toNat_shiftRight, UInt64.toNat_ofNat', Nat.mod_eq_of_lt (Nat.lt_trans hk (by decide)),
    Nat.mod_eq_of_lt hk, Nat.testBit_shiftRight]

theorem testBit_limb_of_le (a : UInt64) {j : Nat} (h : 64 ≤ j) : a.toNat.testBit j = false :=
  Nat.testBit_lt_two_pow (Nat.lt_of_lt_of_le a.toNat_lt (Nat.pow_le_pow_right (by decide) h))

/-- A limb that has moved up by whole limbs, zero where none has come from. -/
theorem testBit_limb_moved (x : Word) {i j whole : Nat} (hj : j < 64) :
    (if whole ≤ i then x.limb (i - whole) else 0).toNat.testBit j =
      (x.toNat * 2 ^ (64 * whole)).testBit (64 * i + j) := by
  rw [Nat.testBit_mul_two_pow]
  split
  next hle =>
    rw [testBit_limb x hj, decide_eq_true (by omega : 64 * whole ≤ 64 * i + j), Bool.true_and]
    congr 1
    omega
  next hlt =>
    rw [decide_eq_false (by omega : ¬ 64 * whole ≤ 64 * i + j), Bool.false_and]
    simp

theorem testBit_shiftLeftLimb (x : Word) {whole bits i j : Nat} (hbits : bits < 64) (hj : j < 64) :
    (x.shiftLeftLimb whole bits i).toNat.testBit j =
      (x.toNat * 2 ^ (64 * whole + bits)).testBit (64 * i + j) := by
  have hbelow : (if whole + 1 ≤ i then x.limb (i - whole - 1) else 0) =
      if whole + 1 ≤ i then x.limb (i - (whole + 1)) else 0 := rfl
  unfold shiftLeftLimb
  dsimp only
  by_cases hzero : bits = 0
  · rw [if_pos hzero, testBit_limb_moved x hj, hzero, Nat.add_zero]
  rw [if_neg hzero, UInt64.toNat_or, Nat.testBit_or, testBit_limb_shiftLeft _ hbits hj,
    testBit_limb_shiftRight _ (by omega), hbelow]
  by_cases hown : bits ≤ j
  · -- the bit comes from the limb itself
    rw [testBit_limb_of_le _ (by omega : 64 ≤ 64 - bits + j), Bool.or_false,
      decide_eq_true hown, Bool.true_and, testBit_limb_moved x (by omega : j - bits < 64),
      Nat.pow_add, ← Nat.mul_assoc, Nat.testBit_mul_two_pow (x.toNat * 2 ^ (64 * whole)),
      decide_eq_true (by omega : bits ≤ 64 * i + j), Bool.true_and, Nat.add_sub_assoc hown]
  · -- the bit comes from the limb below
    rw [decide_eq_false hown, Bool.false_and, Bool.false_or,
      testBit_limb_moved x (by omega : 64 - bits + j < 64), Nat.testBit_mul_two_pow,
      Nat.testBit_mul_two_pow]
    congr 1
    · exact decide_eq_decide.mpr (by omega)
    · congr 1
      omega

theorem testBit_shiftRightLimb (x : Word) {whole bits i j : Nat} (hbits : bits < 64)
    (hj : j < 64) : (x.shiftRightLimb whole bits i).toNat.testBit j =
      x.toNat.testBit (64 * i + j + (64 * whole + bits)) := by
  unfold shiftRightLimb
  dsimp only
  by_cases hzero : bits = 0
  · rw [if_pos hzero, testBit_limb x hj]
    congr 1
    omega
  rw [if_neg hzero, UInt64.toNat_or, Nat.testBit_or, testBit_limb_shiftRight _ hbits,
    testBit_limb_shiftLeft _ (by omega) hj]
  by_cases hown : bits + j < 64
  · -- the bit comes from the limb itself
    rw [decide_eq_false (by omega : ¬ 64 - bits ≤ j), Bool.false_and, Bool.or_false,
      testBit_limb x hown]
    congr 1
    omega
  · -- the bit comes from the limb above
    rw [testBit_limb_of_le _ (by omega : 64 ≤ bits + j), Bool.false_or,
      decide_eq_true (by omega : 64 - bits ≤ j), Bool.true_and,
      testBit_limb x (by omega : j - (64 - bits) < 64)]
    congr 1
    omega

theorem shiftBy_of_lt {limbAt : Nat → Nat → Nat → UInt64} {s : Word} (h : s.toNat < 256) :
    shiftBy limbAt s =
      ofLimbs ((List.range 4).map (limbAt (s.toNat / 64) (s.toNat % 64))) := by
  have hindex : s.toIndex? = some s.toNat := toIndex?_eq_some_iff.mpr ⟨rfl, by omega⟩
  unfold shiftBy
  rw [hindex]
  exact if_pos h

/-- A distance of 256 or more leaves nothing, whether or not it fits 64 bits. -/
theorem shiftBy_of_le {limbAt : Nat → Nat → Nat → UInt64} {s : Word} (h : 256 ≤ s.toNat) :
    shiftBy limbAt s = zero := by
  unfold shiftBy
  split
  next n hindex =>
    rw [(toIndex?_eq_some_iff.mp hindex).1] at h
    exact if_neg (Nat.not_lt.mpr h)
  next => rfl

theorem toNat_shiftLeft (x s : Word) :
    (x.shiftLeft s).toNat = x.toNat * 2 ^ s.toNat % 2 ^ 256 := by
  by_cases h : s.toNat < 256
  · apply Nat.eq_of_testBit_eq
    intro i
    rw [shiftLeft, shiftBy_of_lt h, testBit_ofLimbs_map,
      testBit_shiftLeftLimb x (Nat.mod_lt _ (by decide)) (Nat.mod_lt _ (by decide)),
      Nat.div_add_mod, Nat.div_add_mod, Nat.testBit_mod_two_pow]
  · have hdvd : 2 ^ 256 ∣ x.toNat * 2 ^ s.toNat :=
      Nat.dvd_mul_left_of_dvd (Nat.pow_dvd_pow 2 (Nat.le_of_not_lt h)) _
    rw [shiftLeft, shiftBy_of_le (Nat.le_of_not_lt h), Nat.mod_eq_zero_of_dvd hdvd]
    rfl

theorem toNat_shiftRight (x s : Word) : (x.shiftRight s).toNat = x.toNat / 2 ^ s.toNat := by
  have hx := toNat_lt x
  by_cases h : s.toNat < 256
  · apply Nat.eq_of_testBit_eq
    intro i
    rw [shiftRight, shiftBy_of_lt h, testBit_ofLimbs_map,
      testBit_shiftRightLimb x (Nat.mod_lt _ (by decide)) (Nat.mod_lt _ (by decide)),
      Nat.div_add_mod, Nat.div_add_mod, Nat.testBit_div_two_pow]
    by_cases hi : i < 256
    · rw [decide_eq_true hi, Bool.true_and]
    · have hpow : 2 ^ 256 ≤ 2 ^ (i + s.toNat) := Nat.pow_le_pow_right (by decide) (by omega)
      rw [Nat.testBit_lt_two_pow (Nat.lt_of_lt_of_le hx hpow), Bool.and_false]
  · have hpow : 2 ^ 256 ≤ 2 ^ s.toNat := Nat.pow_le_pow_right (by decide) (Nat.le_of_not_lt h)
    rw [shiftRight, shiftBy_of_le (Nat.le_of_not_lt h),
      Nat.div_eq_of_lt (Nat.lt_of_lt_of_le hx hpow)]
    rfl

/-- A number is multiplied by a power of two as long as it stays in the lowest limb. -/
theorem shiftLeft_ofNat {n k : Nat} (hk : k < 2 ^ 64) (h : n * 2 ^ k < 2 ^ 64) :
    (ofNat n).shiftLeft (ofNat k) = ofNat (n * 2 ^ k) := by
  have hn : n < 2 ^ 64 := Nat.lt_of_le_of_lt (Nat.le_mul_of_pos_right n (Nat.two_pow_pos k)) h
  apply toNat_inj.mp
  rw [toNat_shiftLeft, toNat_ofNat hn, toNat_ofNat hk, toNat_ofNat h,
    Nat.mod_eq_of_lt (Nat.lt_trans h (by decide))]

/-- Shifts multiply and divide by the power of two that the distance word names. A distance of 256
or more gives zero. -/
theorem shifts_scale (x s : Word) :
    (x.shiftLeft s).toNat = x.toNat * 2 ^ s.toNat % 2 ^ 256 ∧
      (x.shiftRight s).toNat = x.toNat / 2 ^ s.toNat ∧
      (256 ≤ s.toNat → x.shiftLeft s = zero ∧ x.shiftRight s = zero) :=
  ⟨toNat_shiftLeft x s, toNat_shiftRight x s, fun h => ⟨shiftBy_of_le h, shiftBy_of_le h⟩⟩

/-- A distance whose lower 64 bits are zero. -/
theorem shifts_scale_beyond_limb :
    256 ≤ ({ limb1 := 1 } : Word).toNat ∧ one.shiftLeft { limb1 := 1 } = zero ∧
      (⟨-1, -1, -1, -1⟩ : Word).shiftRight { limb1 := 1 } = zero := by
  have hlarge : 256 ≤ ({ limb1 := 1 } : Word).toNat := by decide
  exact ⟨hlarge, ((shifts_scale one { limb1 := 1 }).2.2 hlarge).1,
    ((shifts_scale ⟨-1, -1, -1, -1⟩ { limb1 := 1 }).2.2 hlarge).2⟩

end ImageLinker.Evm.Word
