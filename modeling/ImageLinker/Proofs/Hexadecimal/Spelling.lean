import Mathlib.Data.List.Induction
import ImageLinker.Proofs.Checks.Sources

/-!
A text denotes bytes exactly when what it holds between white space, one leading `0x` apart, spells
them in digits of either letter case. Every other text is refused for an odd number of bytes or for
the first byte that is no digit.
-/
namespace ImageLinker

namespace Text

def SameButCase (cs cs' : List Char) : Prop := cs.map Char.toLower = cs'.map Char.toLower

/-- A core that neither begins nor ends with white space, and nothing but white space around it. -/
def Trims (text core : List Char) : Prop :=
  ∃ front back, text = front ++ core ++ back ∧ (∀ c ∈ front, isBlank c) ∧ (∀ c ∈ back, isBlank c) ∧
    (∀ c ∈ core.head?, isBlank c = false) ∧ ∀ c ∈ core.getLast?, isBlank c = false

theorem trims_iff {text core : List Char} : Trims text core ↔ core = trim text := by
  constructor
  · rintro ⟨front, back, rfl, hfront, hback, hhead, hlast⟩
    rw [trim, List.append_assoc, List.dropWhile_append_of_pos hfront]
    have hback' : ∀ c ∈ back.reverse, isBlank c := fun c hc => hback c (List.mem_reverse.mp hc)
    have hend : trimEnd (core ++ back) = core := by
      rw [trimEnd, List.reverse_append, List.dropWhile_append_of_pos hback', dropWhile_of_head?,
        List.reverse_reverse]
      rwa [List.head?_reverse]
    cases core with
    | nil =>
      rw [List.nil_append, List.dropWhile_eq_nil_iff.mpr hback]
      rfl
    | cons c core =>
      have hkeep : (c :: core ++ back).dropWhile isBlank = c :: core ++ back :=
        dropWhile_of_head? hhead
      rw [hkeep, hend]
  · rintro rfl
    -- what is dropped in front, then what is dropped at the end
    let rest := text.dropWhile isBlank
    have hrest : rest = trimEnd rest ++ (rest.reverse.takeWhile isBlank).reverse := by
      rw [trimEnd, ← List.reverse_append, List.takeWhile_append_dropWhile, List.reverse_reverse]
    refine ⟨text.takeWhile isBlank, (rest.reverse.takeWhile isBlank).reverse, ?_, ?_, ?_, ?_, ?_⟩
    · change _ = _ ++ trimEnd rest ++ _
      rw [List.append_assoc, ← hrest, List.takeWhile_append_dropWhile]
    · exact fun c hc => List.mem_takeWhile_imp hc
    · exact fun c hc => List.mem_takeWhile_imp (List.mem_reverse.mp hc)
    · intro c hc
      refine head?_dropWhile (l := text) c ?_
      change c ∈ rest.head?
      rw [hrest, List.head?_append, show (trimEnd rest).head? = some c from hc]
      rfl
    · intro c hc
      refine head?_dropWhile (l := rest.reverse) c ?_
      rwa [← List.getLast?_reverse]

end Text

namespace Hex

/-- What a text holds between white space, one leading `0x` apart. -/
def payload (text : String) : String := String.ofList (dropMark (Text.trim text.toList))

/-- Characters that a text holds between white space, behind one `0x` if they begin with one. -/
def IsPayload (text digits : List Char) : Prop :=
  ∃ core, Text.Trims text core ∧
    (core = '0' :: 'x' :: digits ∨ ¬ ['0', 'x'] <+: core ∧ core = digits)

theorem isPayload_iff {text : String} {digits : List Char} :
    IsPayload text.toList digits ↔ digits = (payload text).toList := by
  rw [payload, String.toList_ofList]
  unfold IsPayload
  simp only [Text.trims_iff, exists_eq_left]
  unfold dropMark
  split
  · next rest heq =>
    rw [heq]
    constructor
    · rintro (h | ⟨hmark, -⟩)
      · injection h with _ h
        injection h with _ h
        exact h.symm
      · exact absurd (List.prefix_append ['0', 'x'] rest) hmark
    · rintro rfl
      exact .inl rfl
  · next hmark =>
    constructor
    · rintro (h | ⟨-, h⟩)
      · exact absurd h (hmark digits)
      · exact h.symm
    · rintro rfl
      exact .inr ⟨fun ⟨rest, hrest⟩ => hmark rest hrest.symm, rfl⟩

theorem forall_byte {P : UInt8 → Prop} (h : ∀ k : Fin 256, P (UInt8.ofNat k)) (b : UInt8) : P b := by
  have hb := h ⟨b.toNat, b.toNat_lt⟩
  rwa [UInt8.ofNat_toNat] at hb

theorem forall_ascii {P : Char → Prop} (h : ∀ k : Fin 128, P (Char.ofNat k)) {c : Char}
    (hc : c.toNat < 128) : P c := by
  have hchar := h ⟨c.toNat, hc⟩
  rwa [Char.ofNat_toNat] at hchar

def isDigitByte (b : UInt8) : Bool := isDigit (Char.ofNat b.toNat)

def letters (l : List UInt8) : List Char := l.map fun b => (Char.ofNat b.toNat).toLower

theorem nibble_of_isDigitByte : ∀ b : UInt8, isDigitByte b = true →
    ∃ n < 16, nibble b = .ok (UInt8.ofNat n) ∧ (Char.ofNat b.toNat).toLower = digit n :=
  forall_byte (by decide +kernel)

theorem nibble_of_not_isDigitByte :
    ∀ b : UInt8, isDigitByte b = false → nibble b = .error (.unexpected b) :=
  forall_byte (by decide +kernel)

theorem digitsOfByte_of_lt {high low : Nat} (hhigh : high < 16) (hlow : low < 16) :
    digitsOfByte (UInt8.ofNat high * 16 + UInt8.ofNat low) = [digit high, digit low] := by
  have hvalue : (UInt8.ofNat high * 16 + UInt8.ofNat low).toNat = high * 16 + low := by
    rw [UInt8.toNat_add, UInt8.toNat_mul, UInt8.toNat_ofNat', UInt8.toNat_ofNat']
    simp only [UInt8.reduceToNat]
    omega
  have hdiv : (high * 16 + low) / 16 = high := by omega
  have hmod : (high * 16 + low) % 16 = low := by omega
  rw [digitsOfByte, hvalue, hdiv, hmod]

/-- Pairs of digits spell the bytes that they are read as. -/
theorem decodePairs_of_digits (done : Array UInt8) {l : List UInt8} (heven : l.length % 2 = 0)
    (h : ∀ b ∈ l, isDigitByte b = true) : ∃ bytes : List UInt8,
      decodePairs done l = .ok (done ++ bytes.toArray) ∧
        letters l = bytes.flatMap digitsOfByte := by
  match l with
  | [] => exact ⟨[], by simp [decodePairs], rfl⟩
  | [_] => cases heven
  | a :: b :: rest =>
    simp only [List.forall_mem_cons] at h
    obtain ⟨high, hhigh, ha, ha'⟩ := nibble_of_isDigitByte _ h.1
    obtain ⟨low, hlow, hb, hb'⟩ := nibble_of_isDigitByte _ h.2.1
    have hrest : rest.length % 2 = 0 := by simp only [List.length_cons] at heven; omega
    obtain ⟨bytes, hbytes, hletters⟩ := decodePairs_of_digits
      (done.push (UInt8.ofNat high * 16 + UInt8.ofNat low)) hrest h.2.2
    refine ⟨(UInt8.ofNat high * 16 + UInt8.ofNat low) :: bytes, ?_, ?_⟩
    · simp only [decodePairs, ha, hb]
      rw [hbytes]
      simp
    · rw [List.flatMap_cons, digitsOfByte_of_lt hhigh hlow, ← hletters, ← ha', ← hb']
      rfl

/-- The first byte that is no digit is the fault. -/
theorem decodePairs_of_unexpected (done : Array UInt8) {front back : List UInt8} {b : UInt8}
    (heven : (front ++ b :: back).length % 2 = 0) (hfront : ∀ a ∈ front, isDigitByte a = true)
    (hb : isDigitByte b = false) :
    decodePairs done (front ++ b :: back) = .error (.unexpected b) := by
  match front with
  | [] =>
    cases back with
    | nil => cases heven
    | cons c back => simp only [List.nil_append, decodePairs, nibble_of_not_isDigitByte _ hb]
  | [a] =>
    obtain ⟨_, _, ha, _⟩ := nibble_of_isDigitByte _ (hfront a List.mem_cons_self)
    simp only [List.cons_append, List.nil_append, decodePairs, ha, nibble_of_not_isDigitByte _ hb]
  | a :: a' :: front =>
    simp only [List.forall_mem_cons] at hfront
    obtain ⟨_, _, ha, _⟩ := nibble_of_isDigitByte _ hfront.1
    obtain ⟨_, _, ha', _⟩ := nibble_of_isDigitByte _ hfront.2.1
    have hrest : (front ++ b :: back).length % 2 = 0 := by
      simp only [List.cons_append, List.length_cons] at heven
      omega
    simp only [List.cons_append, decodePairs, ha, ha']
    exact decodePairs_of_unexpected _ hrest hfront.2.2 hb

theorem exists_first_not {α : Type} {p : α → Bool} {l : List α} (h : ¬ ∀ a ∈ l, p a = true) :
    ∃ front a back, l = front ++ a :: back ∧ (∀ b ∈ front, p b = true) ∧ p a = false := by
  have hne : l.dropWhile p ≠ [] := fun hnil => h (List.dropWhile_eq_nil_iff.mp hnil)
  obtain ⟨a, back, hback⟩ := List.exists_cons_of_ne_nil hne
  refine ⟨l.takeWhile p, a, back, ?_, fun b hb => List.mem_takeWhile_imp hb, ?_⟩
  · rw [← hback, List.takeWhile_append_dropWhile]
  · exact head?_dropWhile (l := l) a (by rw [hback]; rfl)

/-- What is the same as a lowercase digit but for its case is a digit, and ASCII. -/
theorem isDigit_of_toLower {c : Char} {n : Nat} (hn : n < 16) (h : c.toLower = digit n) :
    c.utf8Size = 1 ∧ isDigit c = true := by
  have hascii : c.toNat < 128 := by
    unfold Char.toLower at h
    split at h
    · next hupper => exact Nat.lt_of_le_of_lt (UInt32.le_iff_toNat_le.mp hupper.2) (by decide)
    · have hdigit : ∀ n : Fin 16, (digit n).toNat < 128 := by decide
      rw [h]
      exact hdigit ⟨n, hn⟩
  have hall : ∀ n : Fin 16, c.toLower = digit n → c.utf8Size = 1 ∧ isDigit c = true :=
    forall_ascii (P := fun c => ∀ n : Fin 16, c.toLower = digit n →
      c.utf8Size = 1 ∧ isDigit c = true) (by decide +kernel) hascii
  exact hall ⟨n, hn⟩ h

theorem ofNat_toUInt8 {c : Char} (h : c.utf8Size = 1) : Char.ofNat c.val.toUInt8.toNat = c := by
  have hle : c.toNat ≤ 127 := UInt32.le_iff_toNat_le.mp (Char.utf8Size_eq_one_iff.mp h)
  have hvalue : c.val.toUInt8.toNat = c.toNat := by
    rw [UInt32.toNat_toUInt8, Char.toNat_val]
    omega
  rw [hvalue, Char.ofNat_toNat]

theorem toLower_digit {n : Nat} (h : n < 16) : (digit n).toLower = digit n := by
  have hall : ∀ n : Fin 16, (digit n).toLower = digit n := by decide
  exact hall ⟨n, h⟩

theorem sameButCase_iff {cs : List Char} {bytes : List UInt8} :
    Text.SameButCase cs (encode bytes).toList ↔
      cs.map Char.toLower = bytes.flatMap digitsOfByte := by
  have hlower : (bytes.flatMap digitsOfByte).map Char.toLower = bytes.flatMap digitsOfByte := by
    refine (List.map_congr_left fun c hc => ?_).trans (List.map_id _)
    obtain ⟨n, hn, rfl⟩ := exists_of_mem_digits hc
    exact toLower_digit hn
  rw [Text.SameButCase, encode, String.toList_ofList, hlower]

theorem digits_of_spelling {cs : List Char} {bytes : List UInt8}
    (h : cs.map Char.toLower = bytes.flatMap digitsOfByte) :
    ∀ c ∈ cs, c.utf8Size = 1 ∧ isDigit c = true := by
  intro c hc
  have hmem : c.toLower ∈ bytes.flatMap digitsOfByte := h ▸ List.mem_map_of_mem hc
  obtain ⟨n, hn, hlower⟩ := exists_of_mem_digits hmem
  exact isDigit_of_toLower hn hlower

theorem flatMap_digitsOfByte_injective {bytes bytes' : List UInt8}
    (h : bytes.flatMap digitsOfByte = bytes'.flatMap digitsOfByte) : bytes = bytes' := by
  have hdecode := decode_encode bytes
  rw [encode, h] at hdecode
  exact (Except.ok.inj ((decode_encode bytes').symm.trans hdecode)).symm

theorem encoded_of_digits {cs : List Char}
    (h : ∀ b ∈ Checked.encoded cs, isDigitByte b = true) : ∀ c ∈ cs, c.utf8Size = 1 := by
  have hascii : ∀ b : UInt8, isDigitByte b = true → b < 0x80 := forall_byte (by decide +kernel)
  intro c hc
  obtain ⟨b, tail, hchar, -, -, halone⟩ := Checked.exists_utf8EncodeChar c
  have hmem : b ∈ Checked.encoded cs :=
    List.mem_flatMap.mpr ⟨c, hc, by rw [hchar]; exact List.mem_cons_self⟩
  rw [← String.length_utf8EncodeChar, hchar, halone (hascii b (h b hmem))]
  rfl

theorem letters_encoded {cs : List Char} (h : ∀ c ∈ cs, c.utf8Size = 1) :
    Checked.encoded cs = cs.map (fun c => c.val.toUInt8) ∧
      letters (Checked.encoded cs) = cs.map Char.toLower := by
  have hbytes : Checked.encoded cs = cs.map fun c => c.val.toUInt8 := by
    rw [← toList_toUTF8_ofList_ascii h, toList_toUTF8_ofList]
    rfl
  refine ⟨hbytes, ?_⟩
  rw [hbytes, letters, List.map_map]
  refine List.map_congr_left fun c hc => ?_
  rw [Function.comp_apply, ofNat_toUInt8 (h c hc)]

/-- Why bytes are no pairs of digits: their number is odd, or the first that is no digit. -/
inductive Refused : List UInt8 → Fault → Prop where
  | odd {l : List UInt8} (h : l.length % 2 = 1) : Refused l (.oddLength l.length)
  | unexpected {front back : List UInt8} {b : UInt8} (heven : (front ++ b :: back).length % 2 = 0)
      (hfront : ∀ a ∈ front, isDigitByte a = true) (hb : isDigitByte b = false) :
      Refused (front ++ b :: back) (.unexpected b)

theorem decode_eq (text : String) : decode text =
    if (payload text).toUTF8.toList.length % 2 ≠ 0 then
      .error (.oddLength (payload text).toUTF8.toList.length)
    else (decodePairs #[] (payload text).toUTF8.toList).map Array.toList := rfl

theorem decode_of_refused {text : String} {fault : Fault}
    (h : Refused (payload text).toUTF8.toList fault) : decode text = .error fault := by
  rw [decode_eq]
  generalize (payload text).toUTF8.toList = l at h
  cases h with
  | odd hodd => rw [if_pos (by omega)]
  | unexpected heven hfront hb =>
    rw [if_neg (by omega), decodePairs_of_unexpected _ heven hfront hb]
    rfl

theorem decode_of_digits {text : String} (heven : (payload text).toUTF8.toList.length % 2 = 0)
    (h : ∀ b ∈ (payload text).toUTF8.toList, isDigitByte b = true) :
    ∃ bytes, decode text = .ok bytes ∧
      (payload text).toList.map Char.toLower = bytes.flatMap digitsOfByte := by
  obtain ⟨bytes, hbytes, hletters⟩ := decodePairs_of_digits #[] heven h
  refine ⟨bytes, ?_, ?_⟩
  · rw [decode_eq, if_neg (by omega), hbytes]
    simp [Except.map]
  · rw [Checked.toList_toUTF8] at h hletters
    rw [← hletters, (letters_encoded (encoded_of_digits h)).2]

theorem refused_or_digits (l : List UInt8) :
    (∃ fault, Refused l fault) ∨ l.length % 2 = 0 ∧ ∀ b ∈ l, isDigitByte b = true := by
  by_cases hodd : l.length % 2 = 1
  · exact .inl ⟨_, .odd hodd⟩
  by_cases hdigits : ∀ b ∈ l, isDigitByte b = true
  · exact .inr ⟨by omega, hdigits⟩
  obtain ⟨front, b, back, rfl, hfront, hb⟩ := exists_first_not hdigits
  exact .inl ⟨_, .unexpected (by omega) hfront hb⟩

theorem decode_eq_ok_iff {text : String} {bytes : List UInt8} : decode text = .ok bytes ↔
    Text.SameButCase (payload text).toList (encode bytes).toList := by
  rw [sameButCase_iff]
  constructor
  · intro h
    rcases refused_or_digits (payload text).toUTF8.toList with
      ⟨fault, hrefused⟩ | ⟨heven, hdigits⟩
    · rw [decode_of_refused hrefused] at h
      cases h
    · obtain ⟨bytes', hdecode, hspell⟩ := decode_of_digits heven hdigits
      rw [h] at hdecode
      cases hdecode
      exact hspell
  · intro h
    have hdigit := digits_of_spelling h
    have hencoded := (letters_encoded fun c hc => (hdigit c hc).1).1
    rw [← Checked.toList_toUTF8] at hencoded
    have heven : (payload text).toUTF8.toList.length % 2 = 0 := by
      have hlen := congrArg List.length h
      rw [List.length_map, length_digits] at hlen
      rw [hencoded, List.length_map, hlen, Nat.mul_mod_right]
    have hdigits : ∀ b ∈ (payload text).toUTF8.toList, isDigitByte b = true := by
      rw [hencoded, List.forall_mem_map]
      intro c hc
      rw [isDigitByte, ofNat_toUInt8 (hdigit c hc).1]
      exact (hdigit c hc).2
    obtain ⟨bytes', hdecode, hspell⟩ := decode_of_digits heven hdigits
    rw [hdecode, flatMap_digitsOfByte_injective (h.symm.trans hspell)]

theorem decode_eq_error_iff {text : String} {fault : Fault} : decode text = .error fault ↔
    Refused (payload text).toUTF8.toList fault := by
  refine ⟨fun h => ?_, decode_of_refused⟩
  rcases refused_or_digits (payload text).toUTF8.toList with ⟨fault', hrefused⟩ | ⟨heven, hdigits⟩
  · rw [decode_of_refused hrefused] at h
    cases h
    exact hrefused
  · obtain ⟨_, hdecode, _⟩ := decode_of_digits heven hdigits
    rw [hdecode] at h
    cases h

/-- Reading accepts what writing produces, in digits of either case, between white space and behind
one `0x`. Every other text is refused for what is wrong with its payload. -/
theorem decode_exact (text : String) :
    (∀ digits, IsPayload text.toList digits ↔ digits = (payload text).toList) ∧
    (∀ bytes, decode text = .ok bytes ↔
      Text.SameButCase (payload text).toList (encode bytes).toList) ∧
    (∀ e, (decode text).mapError LinkError.invalidHex = .error e ↔
      ∃ fault, e = .invalidHex fault ∧ Refused (payload text).toUTF8.toList fault) ∧
    ∀ bytes, decode (encode bytes) = .ok bytes := by
  refine ⟨fun digits => isPayload_iff, fun bytes => decode_eq_ok_iff, fun e => ?_, decode_encode⟩
  simp only [← decode_eq_error_iff]
  cases decode text with
  | ok bytes => simp [Except.mapError]
  | error fault => simp [Except.mapError, eq_comm]

/-- Of two marks the second one is no digits. -/
example : decode "\n0x0xaB" = .error (.unexpected 0x78) := by decide +kernel

end Hex

end ImageLinker
