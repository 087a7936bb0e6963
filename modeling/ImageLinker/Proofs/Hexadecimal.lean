import Mathlib.Data.List.TakeWhile
import ImageLinker.Hex

/-! Hexadecimal text is read back as the bytes or the number that it was written from. -/
namespace ImageLinker

theorem toList_loop_eq (bytes : ByteArray) (i : Nat) (done : List UInt8) :
    ByteArray.toList.loop bytes i done = done.reverse ++ bytes.data.toList.drop i := by
  fun_induction ByteArray.toList.loop bytes i done with
  | case1 i done h ih =>
    have hi : i < bytes.data.toList.length := h
    have hget : bytes.get! i = bytes.data.toList[i] := getElem!_pos bytes.data i h
    rw [ih, List.reverse_cons, List.append_assoc, List.drop_eq_getElem_cons hi, hget]
    rfl
  | case2 i done h =>
    have hi : bytes.data.toList.length ≤ i := Nat.le_of_not_lt h
    rw [List.drop_of_length_le hi, List.append_nil]

theorem toList_toUTF8_ofList (cs : List Char) :
    (String.ofList cs).toUTF8.toList = cs.flatMap String.utf8EncodeChar := by
  change (String.ofList cs).toByteArray.toList = _
  rw [String.toByteArray_ofList, ByteArray.toList, toList_loop_eq]
  simp [List.utf8Encode]

/-- Characters of one byte are their numbers. -/
theorem toList_toUTF8_ofList_ascii {cs : List Char} (h : ∀ c ∈ cs, c.utf8Size = 1) :
    (String.ofList cs).toUTF8.toList = cs.map fun c => c.val.toUInt8 := by
  rw [toList_toUTF8_ofList]
  induction cs with
  | nil => rfl
  | cons c rest ih =>
    obtain ⟨hc, hrest⟩ := List.forall_mem_cons.mp h
    rw [List.flatMap_cons, ih hrest, String.utf8EncodeChar_eq_singleton hc]
    rfl

theorem dropWhile_of_head? {α : Type} {p : α → Bool} {l : List α}
    (h : ∀ a ∈ l.head?, p a = false) : l.dropWhile p = l := by
  cases l with
  | nil => rfl
  | cons a l => rw [List.dropWhile_cons, h a rfl, if_neg Bool.false_ne_true]

theorem takeWhile_of_head? {α : Type} {p : α → Bool} {l : List α}
    (h : ∀ a ∈ l.head?, p a = false) : l.takeWhile p = [] := by
  cases l with
  | nil => rfl
  | cons a l => rw [List.takeWhile_cons, h a rfl, if_neg Bool.false_ne_true]

theorem head?_dropWhile {α : Type} {p : α → Bool} {l : List α} :
    ∀ a ∈ (l.dropWhile p).head?, p a = false := by
  intro a ha
  have hnot := List.head?_dropWhile_not p l
  rwa [ha] at hnot

namespace Hex

theorem utf8Size_digit {n : Nat} (h : n < 16) : (digit n).utf8Size = 1 := by
  have hall : ∀ n : Fin 16, (digit n).utf8Size = 1 := by decide
  exact hall ⟨n, h⟩

theorem digit_ne_x {n : Nat} (h : n < 16) : digit n ≠ 'x' := by
  have hall : ∀ n : Fin 16, digit n ≠ 'x' := by decide
  exact hall ⟨n, h⟩

theorem isBlank_digit {n : Nat} (h : n < 16) : Text.isBlank (digit n) = false := by
  have hall : ∀ n : Fin 16, Text.isBlank (digit n) = false := by decide
  exact hall ⟨n, h⟩

theorem nibble_digit {n : Nat} (h : n < 16) :
    nibble (digit n).val.toUInt8 = .ok (UInt8.ofNat n) := by
  have hall : ∀ n : Fin 16, nibble (digit n).val.toUInt8 = .ok (UInt8.ofNat n) := by decide
  exact hall ⟨n, h⟩

theorem exists_of_mem_digits {bytes : List UInt8} {c : Char}
    (h : c ∈ bytes.flatMap digitsOfByte) : ∃ n < 16, c = digit n := by
  obtain ⟨b, _, hc⟩ := List.mem_flatMap.mp h
  have hb := b.toNat_lt
  simp only [digitsOfByte, List.mem_cons, List.not_mem_nil, or_false] at hc
  obtain rfl | rfl := hc
  · exact ⟨_, by omega, rfl⟩
  · exact ⟨_, Nat.mod_lt _ (by decide), rfl⟩

theorem length_digits (bytes : List UInt8) :
    (bytes.flatMap digitsOfByte).length = 2 * bytes.length := by
  induction bytes with
  | nil => rfl
  | cons b rest ih =>
    rw [List.flatMap_cons, List.length_append, ih, List.length_cons]
    simp only [digitsOfByte, List.length_cons, List.length_nil]
    omega

theorem dropMark_of_not_mem {cs : List Char} (h : 'x' ∉ cs) : dropMark cs = cs := by
  unfold dropMark
  split
  · exact absurd (List.mem_cons_of_mem _ List.mem_cons_self) h
  · rfl

theorem ofNat_halves (b : UInt8) :
    UInt8.ofNat (b.toNat / 16) * 16 + UInt8.ofNat (b.toNat % 16) = b := by
  have hb := b.toNat_lt
  apply UInt8.toNat_inj.mp
  rw [UInt8.toNat_add, UInt8.toNat_mul, UInt8.toNat_ofNat', UInt8.toNat_ofNat']
  simp only [UInt8.reduceToNat]
  omega

theorem decodePairs_digits (done : Array UInt8) (bytes : List UInt8) :
    decodePairs done ((bytes.flatMap digitsOfByte).map fun c => c.val.toUInt8) =
      .ok (done ++ bytes.toArray) := by
  induction bytes generalizing done with
  | nil => simp [decodePairs]
  | cons b rest ih =>
    have hb := b.toNat_lt
    have hhigh := nibble_digit (show b.toNat / 16 < 16 by omega)
    have hlow := nibble_digit (show b.toNat % 16 < 16 by omega)
    rw [List.flatMap_cons, List.map_append]
    simp only [digitsOfByte, List.map_cons, List.map_nil, List.cons_append, List.nil_append,
      decodePairs, hhigh, hlow]
    rw [ofNat_halves, ih]
    simp

def digitValue (c : Char) : Nat :=
  if c.isDigit then c.toNat - 48 else if 'a' ≤ c ∧ c ≤ 'f' then c.toNat - 87 else c.toNat - 55

/-- The number that digits write, most significant first, behind the digits of `n`. -/
def numberOf (digits : List Char) (n : Nat := 0) : Nat :=
  digits.foldl (fun n c => n * 16 + digitValue c) n

def literal? (text : String) : Option Nat :=
  match text.toList with
  | '0' :: 'x' :: digits =>
    if !digits.isEmpty && digits.all isDigit then some (numberOf digits) else none
  | _ => none

theorem numberOf_append (cs cs' : List Char) (n : Nat) :
    numberOf (cs ++ cs') n = numberOf cs' (numberOf cs n) := List.foldl_append

theorem isDigit_digit {n : Nat} (h : n < 16) :
    isDigit (digit n) = true ∧ digitValue (digit n) = n := by
  have hall : ∀ n : Fin 16, isDigit (digit n) = true ∧ digitValue (digit n) = n := by decide
  exact hall ⟨n, h⟩

theorem isDigit_of_mem_digits {bytes : List UInt8} :
    ∀ c ∈ bytes.flatMap digitsOfByte, isDigit c = true := by
  intro c hc
  obtain ⟨n, hn, rfl⟩ := exists_of_mem_digits hc
  exact (isDigit_digit hn).1

theorem digits_ne_nil {bytes : List UInt8} (h : bytes ≠ []) :
    bytes.flatMap digitsOfByte ≠ [] := by
  rw [← List.length_pos_iff, length_digits]
  exact Nat.mul_pos (by decide) (List.length_pos_iff.mpr h)

theorem digitChar_eq_digit {n : Nat} (h : n < 16) : Nat.digitChar n = digit n := by
  have hall : ∀ n : Fin 16, Nat.digitChar n = digit n := by decide
  exact hall ⟨n, h⟩

theorem literal?_of_digits {digits : List Char} (hne : digits ≠ [])
    (h : ∀ c ∈ digits, isDigit c) :
    literal? ("0x" ++ String.ofList digits) = some (numberOf digits) := by
  have hchars : ("0x" ++ String.ofList digits).toList = '0' :: 'x' :: digits := by
    simp only [String.toList_append, String.toList_ofList]
    rfl
  rw [literal?, hchars]
  refine if_pos ?_
  rw [Bool.and_eq_true, Bool.not_eq_true', List.isEmpty_eq_false_iff, List.all_eq_true]
  exact ⟨hne, h⟩

theorem numberOf_toDigits (n : Nat) :
    (∀ c ∈ Nat.toDigits 16 n, isDigit c) ∧ numberOf (Nat.toDigits 16 n) = n := by
  induction n using Nat.strongRecOn with
  | _ n ih =>
    rw [Nat.toDigits_eq_if (by decide)]
    split
    · next hlt =>
      obtain ⟨hdigit, hvalue⟩ := isDigit_digit hlt
      rw [digitChar_eq_digit hlt, List.forall_mem_singleton]
      exact ⟨hdigit, (Nat.zero_add _).trans hvalue⟩
    · obtain ⟨hdigits, hnumber⟩ := ih (n / 16) (by omega)
      obtain ⟨hdigit, hvalue⟩ := isDigit_digit (Nat.mod_lt n (by decide : 0 < 16))
      rw [digitChar_eq_digit (Nat.mod_lt n (by decide)), numberOf_append, hnumber,
        List.forall_mem_append, List.forall_mem_singleton]
      refine ⟨⟨hdigits, hdigit⟩, ?_⟩
      change n / 16 * 16 + digitValue (digit (n % 16)) = n
      rw [hvalue, Nat.div_add_mod']

/-- Numbers are read back from literals of any least width. -/
theorem literal?_ofNat (width n : Nat) : literal? ("0x" ++ ofNat width n) = some n := by
  obtain ⟨hdigits, hnumber⟩ := numberOf_toDigits n
  have hzeros (count : Nat) : numberOf (List.replicate count '0') = 0 := by
    induction count with
    | zero => rfl
    | succ count ih => exact ih
  have hne : Nat.toDigits 16 n ≠ [] := Nat.toDigits_ne_nil
  rw [ofNat, literal?_of_digits (List.append_ne_nil_of_right_ne_nil _ hne), numberOf_append,
    hzeros, hnumber]
  rw [List.forall_mem_append]
  refine ⟨fun c hc => ?_, hdigits⟩
  rw [List.eq_of_mem_replicate hc]
  decide

/-- The digits of bytes write the number that the bytes write in base 256. -/
theorem numberOf_digits (bytes : List UInt8) (n : Nat) :
    numberOf (bytes.flatMap digitsOfByte) n = bytes.foldl (fun n b => n * 256 + b.toNat) n := by
  induction bytes generalizing n with
  | nil => rfl
  | cons b rest ih =>
    have hb := b.toNat_lt
    obtain ⟨-, hhigh⟩ := isDigit_digit (show b.toNat / 16 < 16 by omega)
    obtain ⟨-, hlow⟩ := isDigit_digit (show b.toNat % 16 < 16 by omega)
    rw [List.flatMap_cons, numberOf_append, ih, List.foldl_cons]
    congr 1
    simp only [digitsOfByte, numberOf, List.foldl_cons, List.foldl_nil, hhigh, hlow]
    omega

theorem literal?_encode {bytes : List UInt8} (h : bytes ≠ []) :
    literal? ("0x" ++ encode bytes) = some (bytes.foldl (fun n b => n * 256 + b.toNat) 0) := by
  rw [encode, literal?_of_digits (digits_ne_nil h) isDigit_of_mem_digits, numberOf_digits]

/-- Characters in front of a text's last run of digits, the run, and the characters behind it. -/
structure LastRun (front token back : List Char) : Prop where
  ne_nil : token ≠ []
  digits : ∀ c ∈ token, isDigit c = true
  before : ∀ c ∈ front.getLast?, isDigit c = false
  behind : ∀ c ∈ back, isDigit c = false

theorem LastRun.lastToken {front token back : List Char} (h : LastRun front token back) :
    lastToken (String.ofList (front ++ token ++ back)) = some (String.ofList token) := by
  have hdigits : ∀ c ∈ token.reverse, isDigit c = true := fun c hc =>
    h.digits c (List.mem_reverse.mp hc)
  have hdrop : (front ++ token ++ back).reverse.dropWhile (!isDigit ·) =
      token.reverse ++ front.reverse := by
    rw [List.reverse_append, List.dropWhile_append_of_pos, List.reverse_append]
    · obtain ⟨c, cs, hcs⟩ :=
        List.exists_cons_of_ne_nil (List.reverse_ne_nil_iff.mpr h.ne_nil)
      rw [hcs] at hdigits ⊢
      refine dropWhile_of_head? fun a ha => ?_
      cases ha
      rw [hdigits c List.mem_cons_self]
      rfl
    · intro c hc
      rw [h.behind c (List.mem_reverse.mp hc)]
      rfl
  have hstop : front.reverse.takeWhile isDigit = [] := by
    refine takeWhile_of_head? fun c hc => h.before c ?_
    rwa [List.head?_reverse] at hc
  have htake : (token.reverse ++ front.reverse).takeWhile isDigit = token.reverse := by
    rw [List.takeWhile_append_of_pos hdigits, hstop, List.append_nil]
  rw [Hex.lastToken, String.toList_ofList, hdrop, htake, List.reverse_reverse]
  obtain ⟨c, cs, rfl⟩ := List.exists_cons_of_ne_nil h.ne_nil
  rfl

theorem lastToken_encode {bytes : List UInt8} (h : bytes ≠ []) :
    lastToken (encode bytes) = some (encode bytes) := by
  have hrun : LastRun [] (bytes.flatMap digitsOfByte) [] :=
    ⟨digits_ne_nil h, isDigit_of_mem_digits, nofun, nofun⟩
  simpa [encode] using hrun.lastToken

end Hex

theorem Text.trim_of_forall_not_blank {cs : List Char} (h : ∀ c ∈ cs, isBlank c = false) :
    trim cs = cs := by
  have hkeep (cs : List Char) (h : ∀ c ∈ cs, isBlank c = false) : cs.dropWhile isBlank = cs :=
    dropWhile_of_head? fun c hc => h c (List.mem_of_mem_head? hc)
  unfold trim trimEnd
  rw [hkeep cs h, hkeep cs.reverse fun c hc => h c (List.mem_reverse.mp hc), List.reverse_reverse]

/-- Bytes are read back from the text that they are written as. -/
theorem Hex.decode_encode (bytes : List UInt8) : decode (encode bytes) = .ok bytes := by
  have hblank : ∀ c ∈ bytes.flatMap digitsOfByte, Text.isBlank c = false := by
    intro c hc
    obtain ⟨n, hn, rfl⟩ := exists_of_mem_digits hc
    exact isBlank_digit hn
  have hmark : 'x' ∉ bytes.flatMap digitsOfByte := by
    intro hx
    obtain ⟨n, hn, hx⟩ := exists_of_mem_digits hx
    exact digit_ne_x hn hx.symm
  have hsize : ∀ c ∈ bytes.flatMap digitsOfByte, c.utf8Size = 1 := by
    intro c hc
    obtain ⟨n, hn, rfl⟩ := exists_of_mem_digits hc
    exact utf8Size_digit hn
  unfold decode encode
  rw [String.toList_ofList, Text.trim_of_forall_not_blank hblank, dropMark_of_not_mem hmark,
    toList_toUTF8_ofList_ascii hsize]
  dsimp only
  rw [List.length_map, length_digits, if_neg (by omega), decodePairs_digits]
  simp [Except.map]

end ImageLinker
