import ImageLinker.Proofs.Injection

/-!
The scanner stays within any text and cuts it only between characters. The check ahead of a cut lets
through what the characters of the text allow and nothing else, and both ends of the header that the
scanner returns are positions at which the text can be cut.
-/
namespace ImageLinker.Checked

open String.Pos (Raw)

variable {source : String} {bytes piece : List UInt8} {position start stop : Nat}

theorem isBoundary_iff_between (hopens : Opens bytes) :
    isBoundary bytes position = true ↔ ∃ rest, Between bytes position rest := by
  refine ⟨fun h => ?_, fun ⟨rest, h⟩ => h.isBoundary⟩
  simp only [isBoundary, Bool.or_eq_true, beq_iff_eq, Option.any_eq_true, Bool.not_eq_true'] at h
  -- both ends of the text are boundaries, whatever is there
  obtain (rfl | rfl) | ⟨b, hb, hfirst⟩ := h
  · exact ⟨bytes, .start bytes, hopens⟩
  · exact ⟨[], .stop bytes⟩
  · have hlt := (List.getElem?_eq_some_iff.mp hb).1
    refine ⟨bytes.drop position, ⟨bytes.take position, (List.take_append_drop _ _).symm,
      List.length_take_of_le (Nat.le_of_lt hlt)⟩, ?_⟩
    rintro c hc
    rw [List.head?_drop, hb] at hc
    cases hc
    exact hfirst

/-- A check passes just at the positions between the characters of a text. -/
theorem isBoundary_iff_isValid :
    isBoundary source.toUTF8.toList position = true ↔ Raw.IsValid source ⟨position⟩ := by
  rw [isBoundary_iff_between (opens_toUTF8 source), Raw.isValid_iff_exists_append]
  constructor
  · rintro ⟨rest, ⟨front, hbytes, rfl⟩, hrest⟩
    obtain ⟨s, t, rfl, rfl, -⟩ := Yul.exists_strings hbytes hrest
    exact ⟨s, t, rfl, congrArg Raw.mk (length_toUTF8 s)⟩
  · rintro ⟨s, t, rfl, hposition⟩
    obtain rfl : position = s.utf8ByteSize := congrArg Raw.byteIdx hposition
    have hat : At (s ++ t).toUTF8.toList s.utf8ByteSize t.toUTF8.toList :=
      ⟨s.toUTF8.toList, toList_toUTF8_append s t, length_toUTF8 s⟩
    exact ⟨_, hat, opens_toUTF8 t⟩

theorem range_eq_ok_iff : range bytes start stop = .ok piece ↔
    start ≤ stop ∧ stop ≤ bytes.length ∧ piece = (bytes.take stop).drop start := by
  rw [range, ← and_assoc]
  split
  · next h => rw [and_iff_right h, Except.ok.injEq, eq_comm]
  · next h => exact ⟨nofun, fun hand => absurd hand.1 h⟩

/-- Just the pieces between two positions of a text can be cut out of it. -/
theorem cut_eq_ok_iff : cut source.toUTF8.toList start stop = .ok piece ↔
    Raw.IsValid source ⟨start⟩ ∧ Raw.IsValid source ⟨stop⟩ ∧ start ≤ stop ∧
      piece = (source.toUTF8.toList.take stop).drop start := by
  have hfail (b : Breach) : breach b ≠ Except.ok piece := nofun
  rw [cut]
  by_cases hstart : isBoundary source.toUTF8.toList start = true
  · by_cases hstop : isBoundary source.toUTF8.toList stop = true
    · have hle : stop ≤ source.toUTF8.toList.length := by
        rw [length_toUTF8]
        exact (isBoundary_iff_isValid.mp hstop).le_rawEndPos
      rw [hstart, hstop, and_iff_right (isBoundary_iff_isValid.mp hstart),
        and_iff_right (isBoundary_iff_isValid.mp hstop)]
      refine range_eq_ok_iff.trans ?_
      rw [and_iff_right hle]
    · rw [hstart, Bool.eq_false_of_not_eq_true hstop]
      exact iff_of_false (hfail (.splitCharacter stop)) fun h =>
        hstop (isBoundary_iff_isValid.mpr h.2.1)
  · rw [Bool.eq_false_of_not_eq_true hstart]
    exact iff_of_false (hfail (.splitCharacter start)) fun h =>
      hstart (isBoundary_iff_isValid.mpr h.1)

/-- The search by positions comes to what the search in lists comes to. -/
theorem findBlock_eq_findRuntimeBlock {fuel : Nat} (hfuel : source.utf8ByteSize < fuel) :
    findBlock source.toUTF8.toList fuel 0 = .ok (Yul.findRuntimeBlock source) := by
  have hlt := (length_toUTF8 source).trans_lt hfuel
  have hfind := findBlock_eq (sound_toUTF8 source) (At.start _) hlt
  rw [Yul.findRuntimeBlock]
  cases hheader : Yul.findHeader? source.toUTF8.toList with
  | none =>
    rw [hheader] at hfind
    exact hfind
  | some found =>
    rw [hheader] at hfind
    obtain ⟨first, last, hblock, hfirst, hlast⟩ := hfind
    rw [hblock, hfirst.position_eq, hlast.at_.position_eq]
    rfl

/-- The header that the scanner returns is a part of the text that is not empty. -/
theorem isValid_of_findRuntimeBlock (h : Yul.findRuntimeBlock source = some (start, stop)) :
    start < stop ∧ stop ≤ source.utf8ByteSize ∧
      Raw.IsValid source ⟨start⟩ ∧ Raw.IsValid source ⟨stop⟩ := by
  obtain ⟨before, header, back, rfl, hheader, rfl, rfl, -⟩ := Yul.exists_split h
  have hpos : 0 < header.utf8ByteSize := Nat.pos_of_ne_zero fun hzero =>
    hheader (String.utf8ByteSize_eq_zero_iff.mp hzero)
  simp only [String.utf8ByteSize_append]
  refine ⟨Nat.lt_add_of_pos_right hpos, Nat.le_add_right _ _, ?_, ?_⟩
  · exact Raw.isValid_iff_exists_append.mpr ⟨before, header ++ back, String.append_assoc, rfl⟩
  · refine Raw.isValid_iff_exists_append.mpr ⟨before ++ header, back, rfl, ?_⟩
    rw [String.rawEndPos, String.utf8ByteSize_append]

/-- No check of the scanner fails, on any text: it ends within as many steps as there are bytes and
one more, reads bytes of the text, and cuts it at positions between its characters, of which two are
the ends of what it returns, so that the source can be cut there for the probes. -/
theorem findRuntimeBlock_safe (source : String) :
    (∀ fuel, source.utf8ByteSize < fuel →
      findBlock source.toUTF8.toList fuel 0 = .ok (Yul.findRuntimeBlock source)) ∧
    (∀ start stop piece, cut source.toUTF8.toList start stop = .ok piece ↔
      Raw.IsValid source ⟨start⟩ ∧ Raw.IsValid source ⟨stop⟩ ∧ start ≤ stop ∧
        piece = (source.toUTF8.toList.take stop).drop start) ∧
    (∀ start stop, Yul.findRuntimeBlock source = some (start, stop) →
      start < stop ∧ stop ≤ source.utf8ByteSize ∧
        Raw.IsValid source ⟨start⟩ ∧ Raw.IsValid source ⟨stop⟩) ∧
    ∀ probes, inject source probes =
      .ok ((Yul.inject source probes).map fun text => text.toUTF8.toList) :=
  ⟨fun _ hfuel => findBlock_eq_findRuntimeBlock hfuel, fun _ _ _ => cut_eq_ok_iff,
    fun _ _ h => isValid_of_findRuntimeBlock h, inject_eq source⟩

/-- A string that ends with a backslash hides a header. In another text a header stands between
characters of more than one byte. -/
theorem findRuntimeBlock_safe_multibyte :
    let hidden := "object \"é object \\\"runtime\\\" \x7b code \x7b\\"
    let shown := "/*é*/object\"runtime\"\x7bcode\x7b€\\"
    findBlock hidden.toUTF8.toList 40 0 = .ok none ∧
      findBlock shown.toUTF8.toList 32 0 = .ok (some (6, 27)) ∧
      Raw.IsValid shown ⟨6⟩ ∧ Raw.IsValid shown ⟨27⟩ := by
  intro hidden shown
  have hnone : Yul.findRuntimeBlock hidden = none := by cbv
  have hsome : Yul.findRuntimeBlock shown = some (6, 27) := by cbv
  obtain ⟨hfind, -, hvalid, -⟩ := findRuntimeBlock_safe shown
  obtain ⟨-, -, hstart, hstop⟩ := hvalid 6 27 hsome
  rw [(findRuntimeBlock_safe hidden).1 40 (by decide), hnone, hfind 32 (by decide), hsome]
  exact ⟨rfl, rfl, hstart, hstop⟩

end ImageLinker.Checked
