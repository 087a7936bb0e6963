import ImageLinker.Compiler
import ImageLinker.Proofs.Checks.Scanning
import ImageLinker.Proofs.Hexadecimal

/-!
The checked steps from a source to the text for the compiler, and from the compiler's text to bytes.
No check fails, and the steps come to what the unchecked ones come to.
-/
namespace ImageLinker.Checked

def encoded (cs : List Char) : List UInt8 := cs.flatMap String.utf8EncodeChar

theorem encoded_cons (c : Char) (cs : List Char) :
    encoded (c :: cs) = String.utf8EncodeChar c ++ encoded cs := rfl

theorem encoded_append (cs cs' : List Char) : encoded (cs ++ cs') = encoded cs ++ encoded cs' :=
  List.flatMap_append

theorem toList_toUTF8 (s : String) : s.toUTF8.toList = encoded s.toList := by
  conv_lhs => rw [← String.ofList_toList (s := s)]
  exact toList_toUTF8_ofList _

theorem toList_toUTF8_append (s t : String) :
    (s ++ t).toUTF8.toList = s.toUTF8.toList ++ t.toUTF8.toList := by
  rw [toList_toUTF8, String.toList_append, encoded_append, toList_toUTF8, toList_toUTF8]

theorem length_toUTF8 (s : String) : s.toUTF8.toList.length = s.utf8ByteSize := by
  rw [ByteArray.toList, toList_loop_eq]
  rfl

theorem length_encoded_toList (s : String) : (encoded s.toList).length = s.utf8ByteSize := by
  rw [← toList_toUTF8, length_toUTF8]

theorem isContinuation_ofNat {n : Nat} (h : n < 256) :
    isContinuation (UInt8.ofNat n) = decide (128 ≤ n ∧ n < 192) := by
  have hn : (UInt8.ofNat n).toNat = n := UInt8.toNat_ofNat_of_lt h
  rw [isContinuation, Bool.eq_iff_iff]
  simp [UInt8.le_iff_toNat_le, UInt8.lt_iff_toNat_lt, hn]

/-- All bytes of a character but the first one go on with it, and a first byte that others follow is
not ASCII. -/
theorem exists_utf8EncodeChar (c : Char) : ∃ b tail, String.utf8EncodeChar c = b :: tail ∧
    isContinuation b = false ∧ (∀ t ∈ tail, isContinuation t = true) ∧
      (b < 0x80 → tail = []) := by
  have hopens {n : Nat} (hn : 192 ≤ n) (hn' : n < 256) :
      isContinuation (UInt8.ofNat n) = false := by
    rw [isContinuation_ofNat hn']
    exact decide_eq_false (by omega)
  have hwide {n : Nat} (hn : 192 ≤ n) (hn' : n < 256) : ¬ UInt8.ofNat n < 0x80 := by
    have hvalue : (UInt8.ofNat n).toNat = n := UInt8.toNat_ofNat_of_lt hn'
    rw [UInt8.lt_iff_toNat_lt, hvalue]
    exact Nat.not_lt.mpr (show 128 ≤ n by omega)
  have htail (n : Nat) : isContinuation (UInt8.ofNat (n % 64 + 128)) = true := by
    rw [isContinuation_ofNat (by omega)]
    exact decide_eq_true (by omega)
  unfold String.utf8EncodeChar
  dsimp only
  split_ifs
  · refine ⟨_, [], rfl, ?_, nofun, fun _ => rfl⟩
    rw [isContinuation_ofNat (by omega)]
    exact decide_eq_false (by omega)
  all_goals
    refine ⟨_, _, rfl, hopens (by omega) (by omega), ?_,
      fun hlt => absurd hlt (hwide (by omega) (by omega))⟩
    simp only [List.forall_mem_cons, htail, true_and]
    exact nofun

theorem opens_encoded (cs : List Char) : Opens (encoded cs) := by
  cases cs with
  | nil => exact nofun
  | cons c cs =>
    obtain ⟨b, tail, hc, hb, -, -⟩ := exists_utf8EncodeChar c
    rw [encoded_cons, hc]
    rintro b' hb'
    cases hb'
    exact hb

theorem sound_encoded (cs : List Char) : Sound (encoded cs) := by
  rintro position b rest ⟨front, hsplit, -⟩ hb
  induction cs generalizing front with
  | nil => exact absurd hsplit.symm (by simp [encoded])
  | cons c cs ih =>
    rw [encoded_cons] at hsplit
    rcases List.append_eq_append_iff.mp hsplit with ⟨front', -, hback⟩ | ⟨part, hc, hback⟩
    · exact ih front' hback
    · cases part with
      | nil => exact ih [] hback.symm
      | cons b' part =>
        obtain ⟨rfl, hrest⟩ := List.cons.inj hback
        -- an ASCII byte is a character of its own
        obtain ⟨first, tail, hchar, -, htail, halone⟩ := exists_utf8EncodeChar c
        rw [hchar] at hc
        cases front with
        | nil =>
          obtain ⟨rfl, rfl⟩ := List.cons.inj hc
          rw [hrest, halone hb]
          exact opens_encoded cs
        | cons a front =>
          have hmem : b ∈ tail := by
            rw [(List.cons.inj hc).2]
            exact List.mem_append_right _ List.mem_cons_self
          have hnot : isContinuation b = false := opens_of_lt (l := []) hb b rfl
          exact absurd (htail b hmem) (by rw [hnot]; decide)

theorem opens_toUTF8 (s : String) : Opens s.toUTF8.toList := by
  rw [toList_toUTF8]
  exact opens_encoded _

theorem sound_toUTF8 (s : String) : Sound s.toUTF8.toList := by
  rw [toList_toUTF8]
  exact sound_encoded _

/-- Splitting characters by a number of bytes, between characters, splits the bytes there. -/
theorem splitAtByte_encoded {cs : List Char} {front back : List UInt8}
    (h : encoded cs = front ++ back) (hopens : Opens back) :
    encoded (Yul.splitAtByte front.length cs).1 = front ∧
      encoded (Yul.splitAtByte front.length cs).2 = back := by
  induction cs generalizing front with
  | nil =>
    obtain ⟨rfl, rfl⟩ := List.append_eq_nil_iff.mp h.symm
    exact ⟨rfl, rfl⟩
  | cons c cs ih =>
    have hsize := String.length_utf8EncodeChar c
    -- the first character is in front
    have hstep (rest : List UInt8) (hfront : front = String.utf8EncodeChar c ++ rest)
        (hrest : encoded cs = rest ++ back) :
        encoded (Yul.splitAtByte front.length (c :: cs)).1 = front ∧
          encoded (Yul.splitAtByte front.length (c :: cs)).2 = back := by
      obtain ⟨ih₁, ih₂⟩ := ih hrest
      have hlen : front.length = c.utf8Size + rest.length := by
        rw [hfront, List.length_append, hsize]
      have hpos := c.utf8Size_pos
      have hleft : c.utf8Size + rest.length - c.utf8Size = rest.length := by omega
      rw [Yul.splitAtByte, if_pos (by omega), hlen, hleft, encoded_cons, ih₁, hfront]
      exact ⟨rfl, ih₂⟩
    rw [encoded_cons] at h
    rcases List.append_eq_append_iff.mp h with ⟨rest, hfront, hrest⟩ | ⟨part, hc, hback⟩
    · exact hstep rest hfront hrest
    · cases part with
      | nil =>
        rw [List.append_nil] at hc
        exact hstep [] (by rw [List.append_nil, hc]) hback.symm
      | cons b part =>
        obtain ⟨first, tail, hchar, -, htail, -⟩ := exists_utf8EncodeChar c
        cases front with
        | nil => exact ⟨rfl, h⟩
        | cons a front =>
          have hmem : b ∈ tail := by
            rw [hchar] at hc
            rw [(List.cons.inj hc).2]
            exact List.mem_append_right _ List.mem_cons_self
          have hnot : isContinuation b = false := hopens b (by rw [hback]; rfl)
          exact absurd (htail b hmem) (by rw [hnot]; decide)

def digits : List Char := "0123456789abcdef".toList

def hexText (bytes : List UInt8) : Checked String := do
  let pairs ← bytes.mapM fun b => do
    return [← get digits (b.toNat / 16), ← get digits (b.toNat % 16)]
  return String.ofList pairs.flatten

def statement (p : Probe) : Checked String := do
  return " mstore(0x" ++ Hex.ofNat 1 p.offset.toNat ++ ",0x" ++ (← hexText p.sentinel.bytes) ++ ")"

/-- The bytes of a source with the statements of probes right behind the runtime header. -/
def inject (source : String) (probes : List Probe) : Checked (Option (List UInt8)) := do
  let bytes := source.toUTF8.toList
  match ← findBlock bytes (steps bytes) 0 with
  | none => return none
  | some (_, stop) =>
    let front ← cut bytes 0 stop
    let statements ← probes.mapM statement
    let back ← cut bytes stop bytes.length
    return some (front ++ (String.join statements).toUTF8.toList ++ back)

theorem get_digits {n : Nat} (h : n < 16) : get digits n = .ok (Hex.digit n) := by
  have hall : ∀ n : Fin 16, digits[n.val]? = some (Hex.digit n) := by decide
  exact get_eq (hall ⟨n, h⟩)

theorem hexText_eq (bytes : List UInt8) : hexText bytes = .ok (Hex.encode bytes) := by
  have hpairs : bytes.mapM (fun b => do
      return [← get digits (b.toNat / 16), ← get digits (b.toNat % 16)] :
        UInt8 → Checked (List Char)) = .ok (bytes.map Hex.digitsOfByte) := by
    refine mapM_eq_ok fun b _ => ?_
    have hb := b.toNat_lt
    rw [get_digits (by omega), ok_bind, get_digits (by omega), ok_bind]
    rfl
  rw [hexText, hpairs, ok_bind, Hex.encode, List.flatMap_def]
  rfl

theorem statement_eq (p : Probe) : statement p = .ok p.yul := by
  rw [statement, hexText_eq, ok_bind]
  rfl

/-- A source is cut behind its header, which is between characters. -/
theorem inject_eq (source : String) (probes : List Probe) : inject source probes =
    .ok ((Yul.inject source probes).map fun text => text.toUTF8.toList) := by
  have hstatements : probes.mapM statement = .ok (probes.map Probe.yul) :=
    mapM_eq_ok fun p _ => statement_eq p
  have hfind := findBlock_eq (sound_toUTF8 source) (At.start _) (At.start _).lt_steps
  rw [inject, Yul.inject, Yul.findRuntimeBlock]
  cases hheader : Yul.findHeader? source.toUTF8.toList with
  | none =>
    rw [hheader] at hfind
    dsimp only at hfind ⊢
    rw [hfind, ok_bind]
    rfl
  | some found =>
    obtain ⟨start, body⟩ := found
    rw [hheader] at hfind
    obtain ⟨first, last, hblock, -, hlast⟩ := hfind
    obtain ⟨front, hsplit, hfront⟩ := hlast.at_
    have hstart : Between source.toUTF8.toList 0 (front ++ body) := by
      rw [← hsplit]
      exact ⟨At.start _, opens_toUTF8 source⟩
    have hcut := hstart.cut_eq (by rw [Nat.zero_add, hfront]; exact hlast)
    rw [Nat.zero_add, hfront] at hcut
    have hcs : encoded source.toList = front ++ body := by rw [← toList_toUTF8, hsplit]
    obtain ⟨h₁, h₂⟩ := splitAtByte_encoded hcs hlast.opens
    dsimp only
    rw [hblock, ok_bind]
    dsimp only
    rw [hcut, ok_bind, hstatements, ok_bind, hlast.cut_length, ok_bind]
    simp only [Option.map_some]
    rw [← hlast.at_.position_eq, ← hfront, toList_toUTF8_append, toList_toUTF8_append,
      toList_toUTF8_ofList, toList_toUTF8_ofList]
    change Except.ok (some (front ++ _ ++ body)) = Except.ok (some (encoded _ ++ _ ++ encoded _))
    rw [h₁, h₂]

def nibble (c : UInt8) : Checked UInt8 := do
  if 0x30 ≤ c ∧ c ≤ 0x39 then subByte c 0x30
  else if 0x61 ≤ c ∧ c ≤ 0x66 then addByte (← subByte c 0x61) 10
  else if 0x41 ≤ c ∧ c ≤ 0x46 then addByte (← subByte c 0x41) 10
  else report (.invalidHex (.unexpected c))

/-- Chunks of two bytes; the last one may be shorter. -/
def chunks : List UInt8 → List (List UInt8)
  | a :: b :: rest => [a, b] :: chunks rest
  | [a] => [[a]]
  | [] => []

def decodePair (pair : List UInt8) : Checked UInt8 := do
  let high ← nibble (← get pair 0)
  let low ← nibble (← get pair 1)
  return high <<< 4 ||| low

def decode (text : String) : Checked (List UInt8) := do
  let digits := (String.ofList (Hex.dropMark (Text.trim text.toList))).toUTF8.toList
  if digits.length % 2 ≠ 0 then report (.invalidHex (.oddLength digits.length))
  (chunks digits).mapM decodePair

def bytesOfText (name path text : String) : Checked (List UInt8) :=
  match Hex.lastToken text with
  | none => report (.compilerInvocation name (.noHexOutput path))
  | some token => decode token

theorem letter_eq {c base less : UInt8} (hbase : base.toNat = less.toNat + 10) (h : base ≤ c)
    (h' : c.toNat ≤ base.toNat + 5) :
    (subByte c base >>= fun d => addByte d 10) = .ok (c - less) := by
  have hc : base.toNat ≤ c.toNat := UInt8.le_iff_toNat_le.mp h
  have hsub : (c - base).toNat = c.toNat - base.toNat := UInt8.toNat_sub_of_le _ _ h
  have hless : (c - less).toNat = c.toNat - less.toNat :=
    UInt8.toNat_sub_of_le _ _ (UInt8.le_iff_toNat_le.mpr (by omega))
  have hten : (10 : UInt8).toNat = 10 := rfl
  rw [subByte_eq h, ok_bind, addByte_eq (show _ < 256 by omega)]
  refine congrArg Except.ok (UInt8.toNat_inj.mp ?_)
  rw [UInt8.toNat_add, hsub, hless, hten]
  omega

theorem nibble_eq (c : UInt8) : nibble c = ofExcept ((Hex.nibble c).mapError .invalidHex) := by
  unfold nibble Hex.nibble
  split_ifs with hdigit hlower hupper
  · exact subByte_eq hdigit.1
  · exact letter_eq rfl hlower.1 (UInt8.le_iff_toNat_le.mp hlower.2)
  · exact letter_eq rfl hupper.1 (UInt8.le_iff_toNat_le.mp hupper.2)
  · rfl

theorem lt_of_nibble {c n : UInt8} (h : Hex.nibble c = .ok n) : n.toNat < 16 := by
  have hsub {low high less : UInt8} (hc : low ≤ c ∧ c ≤ high) (hless : less.toNat ≤ low.toNat)
      (hspan : high.toNat < less.toNat + 16) : (c - less).toNat < 16 := by
    have hlow := UInt8.le_iff_toNat_le.mp hc.1
    have hhigh := UInt8.le_iff_toNat_le.mp hc.2
    rw [UInt8.toNat_sub_of_le _ _ (UInt8.le_iff_toNat_le.mpr (by omega))]
    omega
  unfold Hex.nibble at h
  split_ifs at h with hdigit hlower hupper
  · cases h
    exact hsub hdigit (by decide) (by decide)
  · cases h
    exact hsub hlower (by decide) (by decide)
  · cases h
    exact hsub hupper (by decide) (by decide)

theorem shiftLeft_or {high low : UInt8} (hhigh : high.toNat < 16) (hlow : low.toNat < 16) :
    high <<< 4 ||| low = high * 16 + low := by
  have hshift : (high <<< 4).toNat = high.toNat <<< 4 := by
    rw [UInt8.toNat_shiftLeft]
    refine Nat.mod_eq_of_lt (show high.toNat <<< 4 < 256 from ?_)
    rw [Nat.shiftLeft_eq]
    omega
  have hsixteen : (16 : UInt8).toNat = 2 ^ 4 := rfl
  apply UInt8.toNat_inj.mp
  rw [UInt8.toNat_or, hshift, ← Nat.shiftLeft_add_eq_or_of_lt hlow, Nat.shiftLeft_eq,
    UInt8.toNat_add, UInt8.toNat_mul, hsixteen]
  omega

theorem decodePair_eq (a b : UInt8) : decodePair [a, b] = ofExcept ((do
    let high ← Hex.nibble a
    let low ← Hex.nibble b
    return high * 16 + low : Except Hex.Fault UInt8).mapError .invalidHex) := by
  rw [decodePair, get_eq (a := a) rfl, ok_bind, nibble_eq]
  cases ha : Hex.nibble a with
  | error e => rfl
  | ok high =>
    rw [get_eq (a := b) rfl]
    change (nibble b >>= fun low => _) = _
    rw [nibble_eq]
    cases hb : Hex.nibble b with
    | error e => rfl
    | ok low => exact congrArg Except.ok (shiftLeft_or (lt_of_nibble ha) (lt_of_nibble hb))

theorem decodePairs_eq (done : Array UInt8) {l : List UInt8} (h : l.length % 2 = 0) :
    ∃ r : Except Hex.Fault (List UInt8),
      (chunks l).mapM decodePair = ofExcept (r.mapError .invalidHex) ∧
        Hex.decodePairs done l = r.map fun bytes => done ++ bytes.toArray := by
  fun_induction Hex.decodePairs done l with
  | case1 done a b rest e ha =>
    refine ⟨.error e, ?_, rfl⟩
    rw [chunks, List.mapM_cons, decodePair_eq, ha]
    rfl
  | case2 done a b rest high ha e hb =>
    refine ⟨.error e, ?_, rfl⟩
    rw [chunks, List.mapM_cons, decodePair_eq, ha, hb]
    rfl
  | case3 done a b rest high ha low hb ih =>
    obtain ⟨r, hr, hr'⟩ := ih (by simp only [List.length_cons] at h; omega)
    refine ⟨r.map fun bytes => (high * 16 + low) :: bytes, ?_, ?_⟩
    · rw [chunks, List.mapM_cons, decodePair_eq, ha, hb, hr]
      cases r <;> rfl
    · rw [hr']
      cases r with
      | error e => rfl
      | ok bytes => simp [Except.map]
  | case4 l done hl =>
    cases l with
    | nil => exact ⟨.ok [], rfl, by simp [Except.map]⟩
    | cons a rest =>
      cases rest with
      | nil => exact absurd h (by simp)
      | cons b rest => exact absurd rfl (hl a b rest)

theorem decode_eq (text : String) :
    decode text = ofExcept ((Hex.decode text).mapError .invalidHex) := by
  rw [decode, Hex.decode]
  generalize (String.ofList (Hex.dropMark (Text.trim text.toList))).toUTF8.toList = digits
  dsimp only
  split_ifs with hodd
  · rfl
  · obtain ⟨r, hr, hr'⟩ := decodePairs_eq #[] (not_not.mp hodd)
    rw [hr, hr']
    cases r with
    | error e => rfl
    | ok bytes => simp [Except.map]

theorem bytesOfText_eq (name path text : String) :
    bytesOfText name path text = ofExcept (Compiler.bytesOfText name path text) := by
  unfold bytesOfText Compiler.bytesOfText
  cases Hex.lastToken text with
  | none => rfl
  | some token => exact decode_eq token

theorem size_decodePairs_le {done bytes : Array UInt8} {l : List UInt8}
    (h : Hex.decodePairs done l = .ok bytes) : bytes.size ≤ done.size + l.length := by
  fun_induction Hex.decodePairs done l with
  | case1 => cases h
  | case2 => cases h
  | case3 done a b rest high _ low _ ih =>
    have hle := ih h
    rw [Array.size_push] at hle
    simp only [List.length_cons]
    omega
  | case4 =>
    cases h
    exact Nat.le_add_right _ _

theorem dropMark_sublist (cs : List Char) : (Hex.dropMark cs).Sublist cs := by
  unfold Hex.dropMark
  split
  · exact ((List.Sublist.refl _).cons _).cons _
  · exact List.Sublist.refl _

theorem trim_sublist (cs : List Char) : (Text.trim cs).Sublist cs := by
  have hend := (List.dropWhile_sublist Text.isBlank
    (l := (cs.dropWhile Text.isBlank).reverse)).reverse
  rw [List.reverse_reverse] at hend
  exact hend.trans (List.dropWhile_sublist _)

theorem length_decode_le {text : String} {bytes : List UInt8}
    (h : Hex.decode text = .ok bytes) : bytes.length ≤ text.utf8ByteSize := by
  have hsub := ((dropMark_sublist _).trans (trim_sublist text.toList)).flatMap String.utf8EncodeChar
  have hle := hsub.length_le
  unfold Hex.decode at h
  dsimp only at h
  rw [toList_toUTF8_ofList] at h
  split_ifs at h
  cases hpairs : Hex.decodePairs #[] ((Hex.dropMark (Text.trim text.toList)).flatMap
      String.utf8EncodeChar) with
  | error e =>
    rw [hpairs] at h
    cases h
  | ok decoded =>
    rw [hpairs] at h
    cases h
    have hsize := size_decodePairs_le hpairs
    rw [← length_encoded_toList, encoded, Array.length_toList]
    simp only [List.size_toArray, List.length_nil] at hsize
    omega

theorem toList_sublist_of_lastToken {text token : String} (h : Hex.lastToken text = some token) :
    token.toList.Sublist text.toList := by
  unfold Hex.lastToken at h
  split at h
  · cases h
  · cases h
    rw [String.toList_ofList]
    have hsub := ((List.takeWhile_sublist Hex.isDigit).trans (List.dropWhile_sublist
      (fun c => !Hex.isDigit c) (l := text.toList.reverse))).reverse
    rwa [List.reverse_reverse] at hsub

theorem length_bytesOfText_le {name path text : String} {bytes : List UInt8}
    (h : Compiler.bytesOfText name path text = .ok bytes) : bytes.length ≤ text.utf8ByteSize := by
  unfold Compiler.bytesOfText at h
  cases htoken : Hex.lastToken text with
  | none =>
    rw [htoken] at h
    cases h
  | some token =>
    rw [htoken] at h
    dsimp only at h
    cases hdecode : Hex.decode token with
    | error e =>
      rw [hdecode] at h
      cases h
    | ok decoded =>
      rw [hdecode] at h
      cases h
      refine (length_decode_le hdecode).trans ?_
      rw [← length_encoded_toList, ← length_encoded_toList]
      exact ((toList_sublist_of_lastToken htoken).flatMap _).length_le

end ImageLinker.Checked
