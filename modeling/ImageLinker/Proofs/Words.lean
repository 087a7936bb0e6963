import Mathlib.Tactic.Ring
import ImageLinker.Proofs.Words.Limbs

/-! The bytes of words. -/
namespace ImageLinker.Evm.Word

/-- The number that bytes write, most significant first, behind the digits of `n`. -/
def bigEndian (bytes : List UInt8) (n : Nat := 0) : Nat :=
  bytes.foldl (fun n b => n * 256 + b.toNat) n

theorem bigEndian_append (a b : List UInt8) (n : Nat) :
    bigEndian (a ++ b) n = bigEndian b (bigEndian a n) := List.foldl_append

theorem bigEndian_eq_add (bytes : List UInt8) (n : Nat) :
    bigEndian bytes n = n * 256 ^ bytes.length + bigEndian bytes := by
  induction bytes generalizing n with
  | nil => simp [bigEndian]
  | cons b rest ih =>
    have hcons (n : Nat) : bigEndian (b :: rest) n = bigEndian rest (n * 256 + b.toNat) := rfl
    rw [hcons, hcons, ih (n * 256 + b.toNat), ih (0 * 256 + b.toNat), List.length_cons,
      Nat.pow_succ]
    ring

theorem bigEndian_zeros_append (k : Nat) (bytes : List UInt8) :
    bigEndian (List.replicate k 0 ++ bytes) = bigEndian bytes := by
  have hzeros : bigEndian (List.replicate k 0) = 0 := by
    induction k with
    | zero => rfl
    | succ k ih => exact ih
  rw [bigEndian_append, hzeros]

theorem toNat_appendByte {n : UInt64} {b : UInt8} (h : n.toNat < 2 ^ 56) :
    (n <<< 8 ||| b.toUInt64).toNat = n.toNat * 256 + b.toNat := by
  rw [UInt64.toNat_or, UInt64.toNat_shiftLeft, UInt8.toNat_toUInt64]
  change n.toNat <<< 8 % 2 ^ 64 ||| b.toNat = _
  rw [Nat.mod_eq_of_lt (by rw [Nat.shiftLeft_eq]; omega),
    ← Nat.shiftLeft_add_eq_or_of_lt b.toNat_lt, Nat.shiftLeft_eq]

theorem toNat_foldl_appendByte {bytes : List UInt8} {n : UInt64} {k : Nat}
    (h : n.toNat < 256 ^ k) (hlen : bytes.length + k ≤ 8) :
    (bytes.foldl (fun (n : UInt64) b => n <<< 8 ||| b.toUInt64) n).toNat =
      bigEndian bytes n.toNat := by
  induction bytes generalizing n k with
  | nil => rfl
  | cons b rest ih =>
    rw [List.length_cons] at hlen
    have hpow : 256 ^ k ≤ 256 ^ 7 := Nat.pow_le_pow_right (by decide) (by omega)
    have happ := toNat_appendByte (b := b) (Nat.lt_of_lt_of_le h hpow)
    have hlt : (n <<< 8 ||| b.toUInt64).toNat < 256 ^ (k + 1) := by
      have := b.toNat_lt
      rw [happ, Nat.pow_succ]
      omega
    rw [List.foldl_cons, ih hlt (by omega), happ]
    rfl

theorem toNat_limbOfBytes {bytes : List UInt8} (h : bytes.length ≤ 8) :
    (limbOfBytes bytes).toNat = bigEndian bytes :=
  toNat_foldl_appendByte (n := 0) (k := 0) (by decide) h

theorem toNat_byte_shiftRight (x : UInt64) {k : Nat} (hk : k < 64) :
    (x >>> UInt64.ofNat k).toUInt8.toNat = x.toNat / 2 ^ k % 256 := by
  rw [UInt64.toNat_toUInt8, UInt64.toNat_shiftRight, UInt64.toNat_ofNat', Nat.shiftRight_eq_div_pow]
  rw [Nat.mod_eq_of_lt (Nat.lt_trans hk (by decide)), Nat.mod_eq_of_lt hk]

theorem byte_of_shiftRight {x : UInt64} {b : UInt8} (k : Nat) (hk : k < 64)
    (h : x.toNat / 2 ^ k % 256 = b.toNat) : (x >>> UInt64.ofNat k).toUInt8 = b :=
  UInt8.toNat_inj.mp ((toNat_byte_shiftRight x hk).trans h)

/-- Eight bytes are the bytes of the limb that they write. -/
theorem bytesOfLimb_limbOfBytes {bytes : List UInt8} (h : bytes.length = 8) :
    bytesOfLimb (limbOfBytes bytes) = bytes := by
  have hv := toNat_limbOfBytes (Nat.le_of_eq h)
  generalize limbOfBytes bytes = x at hv
  match bytes, h with
  | [b0, b1, b2, b3, b4, b5, b6, b7], _ =>
    have h1 := b1.toNat_lt
    have h2 := b2.toNat_lt
    have h3 := b3.toNat_lt
    have h4 := b4.toNat_lt
    have h5 := b5.toNat_lt
    have h6 := b6.toNat_lt
    have h7 := b7.toNat_lt
    have h0 := b0.toNat_lt
    simp only [bigEndian, List.foldl_cons, List.foldl_nil] at hv
    have hlast : x.toUInt8 = b7 := UInt8.toNat_inj.mp (by rw [UInt64.toNat_toUInt8]; omega)
    simp only [bytesOfLimb, List.cons.injEq, and_true]
    exact ⟨byte_of_shiftRight 56 (by decide) (by omega), byte_of_shiftRight 48 (by decide) (by omega),
      byte_of_shiftRight 40 (by decide) (by omega), byte_of_shiftRight 32 (by decide) (by omega),
      byte_of_shiftRight 24 (by decide) (by omega), byte_of_shiftRight 16 (by decide) (by omega),
      byte_of_shiftRight 8 (by decide) (by omega), hlast⟩

/-- A word has the bytes that it was read from. -/
theorem toBytes_ofBytes {bytes : List UInt8} (h : bytes.length = 32) :
    (ofBytes bytes).toBytes = bytes := by
  unfold ofBytes toBytes
  simp only [h, Nat.sub_self, List.drop_zero, List.replicate_zero, List.nil_append]
  rw [bytesOfLimb_limbOfBytes (by simp [h]), bytesOfLimb_limbOfBytes (by simp [h]),
    bytesOfLimb_limbOfBytes (by simp [h]), bytesOfLimb_limbOfBytes (by simp [h])]
  have hjoin (k : Nat) : (bytes.drop k).take 8 ++ bytes.drop (k + 8) = bytes.drop k := by
    rw [← List.drop_drop, List.take_append_drop]
  rw [List.append_assoc, List.append_assoc, hjoin 16, hjoin 8, List.take_append_drop]

/-- The value of a word is the number that its bytes write. -/
theorem toNat_ofBytes {bytes : List UInt8} (h : bytes.length ≤ 32) :
    (ofBytes bytes).toNat = bigEndian bytes := by
  unfold ofBytes
  simp only [Nat.sub_eq_zero_of_le h, List.drop_zero]
  have hfull : (List.replicate (32 - bytes.length) 0 ++ bytes).length = 32 := by
    rw [List.length_append, List.length_replicate]
    omega
  rw [← bigEndian_zeros_append (32 - bytes.length) bytes]
  generalize List.replicate (32 - bytes.length) 0 ++ bytes = full at hfull
  have hsplit : full = full.take 8 ++ ((full.drop 8).take 8 ++
      ((full.drop 16).take 8 ++ full.drop 24)) := by
    rw [show full.drop 24 = (full.drop 16).drop 8 by rw [List.drop_drop], List.take_append_drop,
      show full.drop 16 = (full.drop 8).drop 8 by rw [List.drop_drop], List.take_append_drop,
      List.take_append_drop]
  conv_rhs => rw [hsplit]
  rw [bigEndian_append, bigEndian_append, bigEndian_append, bigEndian_eq_add (full.drop 24),
    bigEndian_eq_add ((full.drop 16).take 8), bigEndian_eq_add ((full.drop 8).take 8)]
  have h0 : (full.drop 24).length = 8 := by simp [hfull]
  have h1 : ((full.drop 16).take 8).length = 8 := by simp [hfull]
  have h2 : ((full.drop 8).take 8).length = 8 := by simp [hfull]
  have h3 : (full.take 8).length = 8 := by simp [hfull]
  rw [toNat_eq_limbs]
  dsimp only
  rw [toNat_limbOfBytes (Nat.le_of_eq h0), toNat_limbOfBytes (Nat.le_of_eq h1),
    toNat_limbOfBytes (Nat.le_of_eq h2), toNat_limbOfBytes (Nat.le_of_eq h3), h0, h1, h2]
  ring

/-- A push leaves the number that its data writes, with zeros for the bytes that are missing. -/
theorem toNat_ofImmediate {immediate : List UInt8} {width : Nat} (h : immediate.length ≤ width)
    (hw : width ≤ 32) : (ofImmediate immediate width).toNat =
      bigEndian (immediate ++ List.replicate (width - immediate.length) 0) := by
  unfold ofImmediate
  simp only [Nat.min_eq_left hw, List.take_of_length_le h]
  apply toNat_ofBytes
  rw [List.length_append, List.length_replicate]
  omega

theorem byteAt_zero {b : UInt8} {bytes : List UInt8} (h : (b :: bytes).length = 32) :
    (ofBytes (b :: bytes)).byteAt zero = ofNat b.toNat := by
  unfold byteAt
  rw [show zero.toIndex? = some 0 from rfl, toBytes_ofBytes h]
  simp [ofNat]

theorem ofImmediate_singleton (b : UInt8) : ofImmediate [b] 1 = ofNat b.toNat := by
  simp [ofImmediate, ofBytes, limbOfBytes, ofNat, ofUInt64]

/-- Zeros at the end of a push's data read as the bytes that are missing there. -/
theorem ofImmediate_append_zeros (data : List UInt8) (k width : Nat) :
    ofImmediate (data ++ List.replicate k 0) width = ofImmediate data width := by
  have hfill (data : List UInt8) (n : Nat) :
      data.take n ++ List.replicate (n - (data.take n).length) 0 =
        (data ++ List.replicate n 0).take n := by
    rw [List.take_append, List.take_replicate, List.length_take]
    congr 2
    omega
  unfold ofImmediate
  simp only [hfill]
  rw [List.append_assoc, List.replicate_append_replicate, List.take_append, List.take_append,
    List.take_replicate, List.take_replicate]
  congr 3
  omega

theorem bigEndian_cons (b : UInt8) (rest : List UInt8) :
    bigEndian (b :: rest) = b.toNat * 256 ^ rest.length + bigEndian rest := by
  rw [← bigEndian_eq_add]
  simp [bigEndian]

theorem bigEndian_lt (bytes : List UInt8) : bigEndian bytes < 256 ^ bytes.length := by
  induction bytes with
  | nil => decide
  | cons b rest ih =>
    have hb : b.toNat + 1 ≤ 256 := b.toNat_lt
    calc bigEndian (b :: rest) = b.toNat * 256 ^ rest.length + bigEndian rest :=
          bigEndian_cons b rest
      _ < (b.toNat + 1) * 256 ^ rest.length := by
          rw [Nat.succ_mul]
          exact Nat.add_lt_add_left ih _
      _ ≤ 256 ^ (b :: rest).length := by
          rw [List.length_cons, Nat.pow_succ, Nat.mul_comm]
          exact Nat.mul_le_mul_left _ hb

/-- A byte is the digit at its place in the number that the bytes write. -/
theorem getElem?_eq_digit {bytes : List UInt8} {i : Nat} (h : i < bytes.length) :
    bytes[i]? = some (.ofNat (bigEndian bytes / 256 ^ (bytes.length - 1 - i))) := by
  induction bytes generalizing i with
  | nil => cases h
  | cons b rest ih =>
    rw [bigEndian_cons, Nat.add_comm, Nat.mul_comm, List.length_cons, Nat.add_sub_cancel]
    cases i with
    | zero =>
      rw [Nat.sub_zero, Nat.add_mul_div_left _ _ (Nat.pow_pos (by decide)),
        Nat.div_eq_of_lt (bigEndian_lt rest), Nat.zero_add, UInt8.ofNat_toNat]
      rfl
    | succ i =>
      have hi : i < rest.length := Nat.lt_of_succ_lt_succ h
      have hsplit : 256 ^ rest.length =
          256 ^ (rest.length - 1 - i) * (256 * 256 ^ i) := by
        rw [← Nat.pow_succ', ← Nat.pow_add]
        congr 1
        omega
      rw [List.getElem?_cons_succ, ih hi, show rest.length - (i + 1) = rest.length - 1 - i by omega]
      congr 1
      apply UInt8.toNat_inj.mp
      rw [UInt8.toNat_ofNat', UInt8.toNat_ofNat', hsplit, Nat.mul_assoc,
        Nat.add_mul_div_left _ _ (Nat.pow_pos (by decide)), Nat.mul_assoc,
        Nat.add_mul_mod_self_left]

/-- Bytes of one length are determined by the number that they write. -/
theorem bigEndian_inj {bytes bytes' : List UInt8} (hlen : bytes.length = bytes'.length)
    (h : bigEndian bytes = bigEndian bytes') : bytes = bytes' := by
  apply List.ext_getElem?
  intro i
  by_cases hi : i < bytes.length
  · rw [getElem?_eq_digit hi, getElem?_eq_digit (hlen ▸ hi), h, hlen]
  · rw [List.getElem?_eq_none (Nat.le_of_not_lt hi),
      List.getElem?_eq_none (hlen ▸ Nat.le_of_not_lt hi)]

/-- A first byte that is not zero counts. -/
theorem le_bigEndian {bytes : List UInt8} (hne : bytes ≠ []) (h : bytes.head? ≠ some 0) :
    256 ^ (bytes.length - 1) ≤ bigEndian bytes := by
  obtain ⟨b, rest, rfl⟩ := List.exists_cons_of_ne_nil hne
  rw [bigEndian_cons, List.length_cons, Nat.add_sub_cancel]
  rw [List.head?_cons, ne_eq, Option.some.injEq] at h
  have hb : 0 < b.toNat := Nat.pos_of_ne_zero fun hzero => h (UInt8.toNat_inj.mp hzero)
  exact Nat.le_add_right_of_le (Nat.le_mul_of_pos_left _ hb)

theorem bigEndian_bytesOfLimb (x : UInt64) : bigEndian (bytesOfLimb x) = x.toNat := by
  have hbyte (n k : Nat) (hk : k < 64) (hn : n = x.toNat / 2 ^ (k + 8)) :
      n * 256 + (x >>> UInt64.ofNat k).toUInt8.toNat = x.toNat / 2 ^ k := by
    rw [hn, toNat_byte_shiftRight x hk, Nat.pow_add, ← Nat.div_div_eq_div_mul]
    exact Nat.div_add_mod' _ _
  have hfirst : 0 = x.toNat / 2 ^ (56 + 8) := (Nat.div_eq_of_lt x.toNat_lt).symm
  have hlast : x.toNat / 2 ^ 8 * 256 + x.toUInt8.toNat = x.toNat := by
    rw [UInt64.toNat_toUInt8]
    exact Nat.div_add_mod' _ _
  have h56 := hbyte _ 56 (by decide) hfirst
  have h48 := hbyte _ 48 (by decide) h56
  have h40 := hbyte _ 40 (by decide) h48
  have h32 := hbyte _ 32 (by decide) h40
  have h24 := hbyte _ 24 (by decide) h32
  have h16 := hbyte _ 16 (by decide) h24
  have h8 := hbyte _ 8 (by decide) h16
  exact (congrArg (fun n => n * 256 + x.toUInt8.toNat) h8).trans hlast

theorem length_toBytes (w : Word) : w.toBytes.length = 32 := rfl

/-- The bytes of a word write its value. -/
theorem bigEndian_toBytes (w : Word) : bigEndian w.toBytes = w.toNat := by
  have hlen (x : UInt64) : (bytesOfLimb x).length = 8 := rfl
  unfold toBytes
  rw [bigEndian_append, bigEndian_append, bigEndian_append, bigEndian_eq_add (bytesOfLimb w.limb0),
    bigEndian_eq_add (bytesOfLimb w.limb1), bigEndian_eq_add (bytesOfLimb w.limb2)]
  simp only [hlen, bigEndian_bytesOfLimb, toNat_eq_limbs]
  ring

def byte (w : Word) (i : Nat) : UInt8 := .ofNat (w.toNat / 256 ^ (31 - i))

theorem toBytes_eq_map_byte (w : Word) : w.toBytes = (List.range 32).map w.byte := by
  apply List.ext_getElem?
  intro i
  rw [List.getElem?_map]
  by_cases hi : i < 32
  · rw [getElem?_eq_digit hi, bigEndian_toBytes, List.getElem?_range hi]
    rfl
  · rw [List.getElem?_eq_none (Nat.le_of_not_lt hi),
      List.getElem?_eq_none (by rwa [List.length_range, ← Nat.not_lt]), Option.map_none]

theorem byte_ofBytes_map (f : Nat → UInt8) {i : Nat} (h : i < 32) :
    (ofBytes ((List.range 32).map f)).byte i = f i := by
  have hbytes : (ofBytes ((List.range 32).map f)).toBytes = (List.range 32).map f :=
    toBytes_ofBytes (by simp)
  rw [toBytes_eq_map_byte] at hbytes
  exact List.map_inj_left.mp hbytes i (List.mem_range.mpr h)

theorem byte_last (w : Word) : w.byte 31 = w.limb0.toUInt8 := by
  apply UInt8.toNat_inj.mp
  rw [byte, UInt64.toNat_toUInt8, UInt8.toNat_ofNat', toNat_eq_limbs]
  omega

/-- Two bytes of data push the number that they write. -/
theorem ofImmediate_pair (a b : UInt8) :
    ofImmediate [a, b] 2 = ofNat (a.toNat * 256 + b.toNat) := by
  have hlow : limbOfBytes [0, 0, 0, 0, 0, 0, a, b] = UInt64.ofNat (a.toNat * 256 + b.toNat) := by
    have ha := a.toNat_lt
    have hb := b.toNat_lt
    apply UInt64.toNat_inj.mp
    rw [toNat_limbOfBytes (by simp), UInt64.toNat_ofNat', Nat.mod_eq_of_lt (by omega)]
    simp [bigEndian]
  have hzero : limbOfBytes [0, 0, 0, 0, 0, 0, 0, 0] = 0 := by decide
  simp [ofImmediate, ofBytes, ofNat, ofUInt64, hlow, hzero]

end ImageLinker.Evm.Word
