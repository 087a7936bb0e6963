import ImageLinker.Proofs.Words

/-!
Words and bytes, indices and the order: every way into a word and out of it goes by its value.
-/
namespace ImageLinker.Evm.Word

/-- Only the last 32 bytes count. -/
theorem ofBytes_drop (bytes : List UInt8) :
    ofBytes (bytes.drop (bytes.length - 32)) = ofBytes bytes := by
  have hlen : (bytes.drop (bytes.length - 32)).length - 32 = 0 := by
    rw [List.length_drop]
    omega
  unfold ofBytes
  rw [hlen, List.drop_zero]

/-- Leaving out bytes at the front leaves the remainder of the number. -/
theorem bigEndian_drop (bytes : List UInt8) (k : Nat) :
    bigEndian (bytes.drop k) = bigEndian bytes % 256 ^ (bytes.length - k) := by
  have hlt := bigEndian_lt (bytes.drop k)
  have hsplit := bigEndian_append (bytes.take k) (bytes.drop k) 0
  rw [List.take_append_drop, bigEndian_eq_add (bytes.drop k) (bigEndian (bytes.take k))] at hsplit
  rw [hsplit, ← List.length_drop, Nat.mul_comm, Nat.mul_add_mod, Nat.mod_eq_of_lt hlt]

theorem toNat_ofBytes_mod (bytes : List UInt8) :
    (ofBytes bytes).toNat = bigEndian bytes % 2 ^ 256 := by
  have hpow : 256 ^ 32 = 2 ^ 256 := by decide
  rw [← hpow]
  by_cases hlen : bytes.length ≤ 32
  · have hlt : bigEndian bytes < 256 ^ 32 :=
      Nat.lt_of_lt_of_le (bigEndian_lt bytes) (Nat.pow_le_pow_right (by decide) hlen)
    rw [toNat_ofBytes hlen, Nat.mod_eq_of_lt hlt]
  · have hrest : bytes.length - (bytes.length - 32) = 32 := by omega
    rw [← ofBytes_drop, toNat_ofBytes (by rw [List.length_drop, hrest]), bigEndian_drop, hrest]

theorem ofBytes_toBytes (w : Word) : ofBytes w.toBytes = w := by
  apply toNat_inj.mp
  rw [toNat_ofBytes (Nat.le_of_eq (length_toBytes w)), bigEndian_toBytes]

/-- Bytes cut to a width, or filled up to it with zeros on the right. -/
def fitted (bytes : List UInt8) (width : Nat) : List UInt8 :=
  (List.range width).map fun i => bytes[i]?.getD 0

theorem fitted_eq_append (bytes : List UInt8) (width : Nat) :
    fitted bytes width =
      bytes.take width ++ List.replicate (width - (bytes.take width).length) 0 := by
  apply List.ext_getElem?
  intro i
  rw [fitted, List.getElem?_map, List.getElem?_append, List.getElem?_replicate, List.length_take,
    List.getElem?_take]
  by_cases hi : i < width
  · rw [List.getElem?_range hi, Option.map_some, if_pos hi]
    by_cases hlen : i < bytes.length
    · rw [if_pos (by omega), List.getElem?_eq_getElem hlen, Option.getD_some]
    · rw [if_neg (by omega), if_pos (by omega), List.getElem?_eq_none (by omega)]
      rfl
  · rw [List.getElem?_eq_none (by rw [List.length_range]; omega), if_neg hi, if_neg (by omega),
      if_neg (by omega)]
    rfl

theorem ofImmediate_eq_ofBytes_fitted (immediate : List UInt8) {width : Nat} (h : width ≤ 32) :
    ofImmediate immediate width = ofBytes (fitted immediate width) := by
  rw [fitted_eq_append, ofImmediate]
  simp only [Nat.min_eq_left h]

/-- The lower digits decide only between numbers with the same upper ones. -/
theorem compare_digits {x y base : Nat} (hx : x < base) (hy : y < base) (n m : Nat) :
    compare (x + base * n) (y + base * m) = (compare n m).then (compare x y) := by
  have hstep {x n m : Nat} (hx : x < base) (h : n < m) (y : Nat) :
      x + base * n < y + base * m := by
    have hmul := Nat.mul_le_mul_left base (Nat.succ_le_of_lt h)
    rw [Nat.mul_succ] at hmul
    omega
  rcases Nat.lt_trichotomy n m with h | rfl | h
  · rw [Nat.compare_eq_lt.mpr h, Nat.compare_eq_lt.mpr (hstep hx h y)]
    rfl
  · rw [Nat.compare_eq_eq.mpr rfl]
    simp only [compare, compareOfLessAndEq, Nat.add_lt_add_iff_right, Nat.add_right_cancel_iff,
      Ordering.then]
  · rw [Nat.compare_eq_gt.mpr h, Nat.compare_eq_gt.mpr (hstep hy h x)]
    rfl

theorem cmp_eq_compare (a b : Word) : a.cmp b = compare a.toNat b.toNat := by
  rw [toNat_eq_limbs, toNat_eq_limbs, compare_digits a.limb0.toNat_lt b.limb0.toNat_lt,
    compare_digits a.limb1.toNat_lt b.limb1.toNat_lt,
    compare_digits a.limb2.toNat_lt b.limb2.toNat_lt, Ordering.then_assoc, Ordering.then_assoc]
  simp only [cmp, UInt64.compare_eq_toNat_compare_toNat]

theorem toNat_byteAt (a index : Word) : (a.byteAt index).toNat =
    if index.toNat < 32 then a.toNat / 256 ^ (31 - index.toNat) % 256 else 0 := by
  unfold byteAt
  split
  next i hindex =>
    rw [(toIndex?_eq_some_iff.mp hindex).1, toNat_ofUInt64, UInt8.toNat_toUInt64,
      toBytes_eq_map_byte, List.getElem?_map]
    split
    next hi =>
      rw [List.getElem?_range hi]
      exact UInt8.toNat_ofNat'
    next hi =>
      rw [List.getElem?_eq_none (by rwa [List.length_range, ← Nat.not_lt])]
      rfl
  next hindex =>
    have hle := toIndex?_eq_none_iff.mp hindex
    rw [if_neg (by omega)]
    rfl

/-- Bytes of any number are read as the number that they write modulo `2 ^ 256`, and 32 bytes and
words are the same. The data of a push is read as if it were cut or filled up to its width. Words
are ordered by their values, a byte is a digit in base 256, and a word is an index if its value fits
64 bits. -/
theorem conversions_exact :
    (∀ bytes : List UInt8, (ofBytes bytes).toNat = bigEndian bytes % 2 ^ 256) ∧
      (∀ bytes : List UInt8, bytes.length = 32 → (ofBytes bytes).toBytes = bytes) ∧
      (∀ w : Word, w.toBytes.length = 32 ∧ ofBytes w.toBytes = w) ∧
      (∀ (immediate : List UInt8) (width : Nat), width ≤ 32 →
        ofImmediate immediate width = ofBytes (fitted immediate width)) ∧
      (∀ a b : Word, a.cmp b = compare a.toNat b.toNat) ∧
      (∀ a index : Word, (a.byteAt index).toNat =
        if index.toNat < 32 then a.toNat / 256 ^ (31 - index.toNat) % 256 else 0) ∧
      ∀ (w : Word) (n : Nat), w.toIndex? = some n ↔ w.toNat = n ∧ n < 2 ^ 64 :=
  ⟨toNat_ofBytes_mod, fun _ h => toBytes_ofBytes h, fun w => ⟨length_toBytes w, ofBytes_toBytes w⟩,
    fun immediate _ h => ofImmediate_eq_ofBytes_fitted immediate h, cmp_eq_compare, toNat_byteAt,
    fun _ _ => toIndex?_eq_some_iff⟩

/-- Thirty-two different bytes, and a push of two bytes that ends after the first. -/
theorem conversions_exact_sample :
    (ofBytes ((List.range 32).map .ofNat)).toBytes = (List.range 32).map .ofNat ∧
      ofImmediate [0xab] 2 = ofBytes [0xab, 0] :=
  ⟨conversions_exact.2.1 _ (by decide), conversions_exact.2.2.2.1 [0xab] 2 (by decide)⟩

end ImageLinker.Evm.Word
