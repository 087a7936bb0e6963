import ImageLinker.Proofs.Checks.Sources

/-!
Statements behind the runtime header do not move it. Nothing that decides where the first header
begins and ends comes behind its last brace, which no token goes on past, so that later statements
come in front of earlier ones, at the same place.
-/
namespace ImageLinker.Yul

/-- The first byte behind a token settles that it may stand there. -/
theorem Fits.of_append {t : Token} {l rest : List UInt8} (h : Fits t (l ++ rest)) (hne : l ≠ [])
    (rest' : List UInt8) : Fits t (l ++ rest') := by
  obtain ⟨b, l, rfl⟩ := List.exists_cons_of_ne_nil hne
  generalize hbehind : b :: l ++ rest = behind at h
  cases h with
  | lineComment h => exact .lineComment h
  | blockComment h => exact .blockComment h
  | string h => exact .string h
  | lastLineComment | lastBlockComment | lastString | lastEscape => cases hbehind
  | name hb hpart hrest => exact .name hb hpart (by rwa [← hbehind] at hrest)
  | single hb hq hl hc =>
    have hpair {c d e : UInt8} {tail tail' : List UInt8} :
        [c, d] <+: e :: b :: tail ↔ [c, d] <+: e :: b :: tail' := by
      simp only [List.cons_prefix_cons, List.nil_prefix]
    rw [← hbehind] at hl hc
    exact .single hb hq (hpair.not.mp hl) (hpair.not.mp hc)

/-- Any tokens may come behind a brace. -/
theorem Lexing.of_brace {ts behind behind' : List Token} (h : Lexing (ts ++ openBrace :: behind))
    (h' : Lexing behind') : Lexing (ts ++ openBrace :: behind') := by
  induction ts with
  | nil => exact .cons (fits_openBrace _) h'
  | cons t ts ih =>
    have hsplit (us : List Token) :
        text (ts ++ openBrace :: us) = text ts ++ openBrace.bytes ++ text us := by
      rw [text_append, text_cons, List.append_assoc]
    have hpos : 0 < openBrace.bytes.length := (fits_openBrace []).length_pos
    have hne : text ts ++ openBrace.bytes ≠ [] :=
      List.append_ne_nil_of_right_ne_nil _ (List.ne_nil_of_length_pos hpos)
    cases h with
    | cons ht hs =>
      refine .cons ?_ (ih hs)
      rw [List.append_eq, hsplit] at ht ⊢
      exact ht.of_append hne _

namespace IsHeader

variable {header : List Token}

theorem exists_brace (h : IsHeader header) : ∃ front, header = front ++ [openBrace] := by
  obtain ⟨t₁, t₂, t₃, t₄, -, rfl⟩ := h
  exact ⟨_, rfl⟩

/-- No header begins within another one. -/
theorem exists_tail (h : IsHeader header) :
    ∃ tail, header = objectName :: tail ∧ objectName ∉ tail := by
  obtain ⟨t₁, t₂, t₃, t₄, htrivia, rfl⟩ := h
  have hobject : objectName.isTrivia = false := rfl
  have hcode : objectName ≠ codeName := fun h => by
    have hlen : (ascii "object").length ≠ (ascii "code").length := by cbv
    exact hlen (congrArg (fun t => t.bytes.length) h)
  have hkind {t : Token} (h : t.kind ≠ .name) : objectName ≠ t := fun ht => h (ht ▸ rfl)
  have hruntime : objectName ≠ runtimeString := hkind (by decide)
  have hbrace : objectName ≠ openBrace := hkind (by decide)
  have hnot : objectName ∉ t₁ ++ t₂ ++ t₃ ++ t₄ := fun hmem => by
    rw [htrivia _ hmem] at hobject
    cases hobject
  simp only [List.mem_append, not_or] at hnot
  refine ⟨_, rfl, ?_⟩
  simp [hnot, hcode, hruntime, hbrace]

end IsHeader

/-- What comes behind a header does not decide whether it is the first one. -/
theorem FirstHeader.of_behind {before header behind : List Token}
    (h : FirstHeader (before ++ header ++ behind) before header behind) (behind' : List Token) :
    FirstHeader (before ++ header ++ behind') before header behind' := by
  refine ⟨rfl, h.isHeader, @fun before₂ header₂ behind₂ hsplit hheader => ?_⟩
  obtain ⟨tail, rfl, -⟩ := h.isHeader.exists_tail
  obtain ⟨tail₂, rfl, hnot⟩ := hheader.exists_tail
  -- a header that begins ahead of the first one also ends ahead of it
  have hwithin (gap : List Token) (hbefore : before = before₂ ++ objectName :: tail₂ ++ gap) :
      before.length ≤ before₂.length := by
    have hwhole : before ++ objectName :: tail ++ behind =
        before₂ ++ objectName :: tail₂ ++ (gap ++ objectName :: tail ++ behind) := by
      simp [hbefore]
    exact h.first hwhole hheader
  rw [List.append_assoc, List.append_assoc] at hsplit
  obtain ⟨gap, rfl, -⟩ | ⟨gap, hbefore, hgap⟩ := List.append_eq_append_iff.mp hsplit
  · rw [List.length_append]
    exact Nat.le_add_right _ _
  · cases gap with
    | nil => exact (congrArg List.length hbefore).le.trans (by simp)
    | cons t gap =>
      obtain ⟨rfl, hbehind⟩ := List.cons.inj hgap
      obtain ⟨gap', rfl, -⟩ | ⟨gap', rfl, hgap'⟩ := List.append_eq_append_iff.mp hbehind
      · exact hwithin gap' (by rw [hbefore, List.append_assoc]; rfl)
      · cases gap' with
        | nil => exact hwithin [] (by simp [hbefore])
        | cons t gap' =>
          obtain ⟨rfl, -⟩ := List.cons.inj hgap'
          exact absurd (List.mem_append_right _ List.mem_cons_self) hnot

/-- A header that the scanner has found it finds whatever the text goes on with. -/
theorem findHeader?_behind {l start body : List UInt8} (h : findHeader? l = some (start, body)) :
    ∃ before header, l = before ++ header ++ body ∧ [0x6f] <+: header ∧ [0x7b] <:+ header ∧
      ∀ body', findHeader? (before ++ header ++ body') = some (header ++ body', body') := by
  obtain ⟨tokens, hlex, rfl⟩ := exists_lexing l
  rw [findHeader?_text hlex, Option.map_eq_some_iff] at h
  obtain ⟨⟨_, behind⟩, hfind, heq⟩ := h
  obtain ⟨before, header, rfl, hfirst⟩ := findTokens?_eq_some_iff.mp hfind
  obtain rfl := hfirst.split
  obtain ⟨rfl, rfl⟩ := Prod.mk.inj heq
  refine ⟨text before, text header, by rw [text_append, text_append], ?_, ?_, fun body' => ?_⟩
  · obtain ⟨tail, rfl, -⟩ := hfirst.isHeader.exists_tail
    have hobject : [0x6f] <+: ascii "object" := ⟨[0x62, 0x6a, 0x65, 0x63, 0x74], by cbv⟩
    exact hobject.trans (List.prefix_append _ _)
  · obtain ⟨front, rfl⟩ := hfirst.isHeader.exists_brace
    rw [text_append, text_cons, text_nil, List.append_nil]
    exact ⟨text front, congrArg (text front ++ ·) ascii_brace.symm⟩
  · obtain ⟨behind', hlex', rfl⟩ := exists_lexing body'
    have hlexed : Lexing (before ++ header ++ behind') := by
      obtain ⟨front, rfl⟩ := hfirst.isHeader.exists_brace
      rw [← List.append_assoc, ← List.append_cons] at hlex ⊢
      exact hlex.of_brace hlex'
    have hfound := findTokens?_eq_some_iff.mpr ⟨before, header, rfl, hfirst.of_behind behind'⟩
    rw [← text_append, ← text_append, findHeader?_text hlexed, hfound, ← text_append]
    rfl

open Checked (Opens encoded encoded_cons length_encoded_toList length_toUTF8 opens_of_lt
  sound_toUTF8 splitAtByte_encoded toList_toUTF8 toList_toUTF8_append)

theorem splitAtByte_append (front back : List Char) :
    splitAtByte (encoded front).length (front ++ back) = (front, back) := by
  induction front with
  | nil => cases back <;> rfl
  | cons c front ih =>
    have hlen : (encoded (c :: front)).length = c.utf8Size + (encoded front).length := by
      rw [encoded_cons, List.length_append, String.length_utf8EncodeChar]
    have hpos := c.utf8Size_pos
    rw [List.cons_append, splitAtByte, if_pos (by omega), hlen, Nat.add_sub_cancel_left, ih]

theorem splitAtByte_join (size : Nat) (cs : List Char) :
    (splitAtByte size cs).1 ++ (splitAtByte size cs).2 = cs := by
  fun_induction splitAtByte size cs with
  | case1 size c rest h front back hsplit ih =>
    rw [hsplit] at ih
    exact congrArg (c :: ·) ih
  | case2 | case3 => rfl

/-- A text whose bytes are split between characters is split there. -/
theorem exists_strings {source : String} {front back : List UInt8}
    (h : source.toUTF8.toList = front ++ back) (hopens : Opens back) :
    ∃ s t : String, source = s ++ t ∧ s.toUTF8.toList = front ∧ t.toUTF8.toList = back := by
  rw [toList_toUTF8] at h
  obtain ⟨hfront, hback⟩ := splitAtByte_encoded h hopens
  refine ⟨.ofList (splitAtByte front.length source.toList).1,
    .ofList (splitAtByte front.length source.toList).2, ?_, ?_, ?_⟩
  · rw [← String.ofList_append, splitAtByte_join, String.ofList_toList]
  · rw [toList_toUTF8, String.toList_ofList, hfront]
  · rw [toList_toUTF8, String.toList_ofList, hback]

theorem findRuntimeBlock_of_bytes {source : String} {before header body : List UInt8}
    (hbytes : source.toUTF8.toList = before ++ header ++ body)
    (h : findHeader? (before ++ header ++ body) = some (header ++ body, body)) :
    findRuntimeBlock source = some (before.length, (before ++ header).length) := by
  rw [findRuntimeBlock, hbytes, h]
  simp only [Option.map_some, List.length_append, Option.some.injEq, Prod.mk.injEq]
  omega

/-- A source is split ahead of its header and behind it, and all texts that go on differently behind
the header have it at the same place. -/
theorem exists_split {source : String} {start stop : Nat}
    (h : findRuntimeBlock source = some (start, stop)) :
    ∃ before header back : String, source = before ++ header ++ back ∧ header ≠ "" ∧
      before.utf8ByteSize = start ∧ (before ++ header).utf8ByteSize = stop ∧
      ∀ behind : String, findRuntimeBlock (before ++ header ++ behind) = some (start, stop) := by
  obtain ⟨⟨rest, body⟩, hfind, -⟩ := Option.map_eq_some_iff.mp h
  obtain ⟨before, header, hbytes, ⟨tail, htail⟩, ⟨init, hinit⟩, hbehind⟩ := findHeader?_behind hfind
  have hblock := findRuntimeBlock_of_bytes hbytes (hbehind body)
  rw [h, Option.some.injEq, Prod.mk.injEq] at hblock
  obtain ⟨rfl, rfl⟩ := hblock
  have hopens : Opens (header ++ body) := by
    rw [← htail]
    exact opens_of_lt (by decide)
  rw [List.append_assoc] at hbytes
  obtain ⟨first, rest, rfl, rfl, hrest⟩ := exists_strings hbytes hopens
  have hbody : Opens body := by
    have hsound := sound_toUTF8 rest
    rw [hrest, ← hinit, List.append_assoc] at hsound
    exact hsound ⟨init, rfl, rfl⟩ (by decide)
  obtain ⟨middle, last, rfl, rfl, rfl⟩ := exists_strings hrest hbody
  refine ⟨first, middle, last, String.append_assoc.symm, ?_, (length_toUTF8 first).symm, ?_,
    fun behind => ?_⟩
  · rintro rfl
    exact List.cons_ne_nil _ _ (htail.trans (toList_toUTF8 ""))
  · rw [← length_toUTF8, toList_toUTF8_append]
  · refine findRuntimeBlock_of_bytes ?_ (hbehind behind.toUTF8.toList)
    rw [toList_toUTF8_append, toList_toUTF8_append]

theorem inject_append {front back : String} {start : Nat}
    (h : findRuntimeBlock (front ++ back) = some (start, front.utf8ByteSize))
    (probes : List Probe) :
    inject (front ++ back) probes = some (front ++ String.join (probes.map Probe.yul) ++ back) := by
  rw [inject, h, Option.map_some, ← length_encoded_toList, String.toList_append]
  dsimp only
  rw [splitAtByte_append]
  simp only [String.ofList_toList]

def HasHeader (source : String) : Prop :=
  ∃ tokens header, Lexing tokens ∧ text tokens = source.toUTF8.toList ∧ IsHeader header ∧
    header <:+: tokens

theorem findRuntimeBlock_eq_none_iff (source : String) :
    findRuntimeBlock source = none ↔ ¬ HasHeader source := by
  obtain ⟨tokens, hlex, htext⟩ := exists_lexing source.toUTF8.toList
  rw [findRuntimeBlock, Option.map_eq_none_iff, ← htext, findHeader?_text hlex,
    Option.map_eq_none_iff, findTokens?_eq_none_iff]
  constructor
  · rintro h ⟨tokens', header, hlex', htext', hheader, hinfix⟩
    obtain rfl := hlex'.unique hlex (htext'.trans htext.symm)
    exact h header hheader hinfix
  · exact fun h header hheader hinfix => h ⟨tokens, header, hlex, htext, hheader, hinfix⟩

/-- Probes go right behind the runtime header of a source, if it has one. The header stays where it
is, the rest of the source as well, and further probes come in front of those. -/
theorem inject_stable (source : String) (p : List Probe) :
    (inject source p = none ↔ ¬ HasHeader source) ∧
    (HasHeader source → ∃ start front back injected,
      findRuntimeBlock source = some (start, front.utf8ByteSize) ∧ source = front ++ back ∧
      inject source p = some injected ∧
      injected = front ++ String.join (p.map Probe.yul) ++ back ∧
      findRuntimeBlock injected = findRuntimeBlock source ∧
      ∀ q, inject injected q = inject source (q ++ p)) := by
  refine ⟨?_, fun h => ?_⟩
  · rw [inject, Option.map_eq_none_iff, findRuntimeBlock_eq_none_iff]
  · obtain ⟨⟨start, stop⟩, hblock⟩ : ∃ block, findRuntimeBlock source = some block :=
      Option.ne_none_iff_exists'.mp fun hnone => (findRuntimeBlock_eq_none_iff source).mp hnone h
    obtain ⟨before, header, back, rfl, -, -, rfl, hbehind⟩ := exists_split hblock
    have hjoin (s t : String) : before ++ header ++ s ++ t = before ++ header ++ (s ++ t) :=
      String.append_assoc
    refine ⟨start, before ++ header, back, _, hblock, rfl, inject_append hblock p, rfl, ?_,
      fun q => ?_⟩
    · rw [hjoin, hbehind, hblock]
    · rw [inject_append hblock, hjoin, inject_append (hbehind _), List.map_append,
        String.join_append]
      simp only [String.append_assoc]

/-- A header behind another beginning of one and behind a comment, with a character of two bytes. -/
theorem inject_stable_candidate :
    let source := "object \"runtime\" // é object\nobject \"runtime\" \x7b code \x7b \x7d \x7d"
    ∀ p : List Probe, ∃ injected, inject source p = some injected ∧
      findRuntimeBlock injected = some (30, 55) ∧
      ∀ q, inject injected q = inject source (q ++ p) := by
  intro source p
  have hblock : findRuntimeBlock source = some (30, 55) := by cbv
  have hheader : HasHeader source := by
    by_contra hnot
    rw [(findRuntimeBlock_eq_none_iff source).mpr hnot] at hblock
    cases hblock
  obtain ⟨start, front, back, injected, -, -, hinject, -, hsame, hagain⟩ :=
    (inject_stable source p).2 hheader
  exact ⟨injected, hinject, hsame.trans hblock, hagain⟩

end ImageLinker.Yul
