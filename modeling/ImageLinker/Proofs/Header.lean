import ImageLinker.Proofs.Lexing

/-! The scanner finds the first runtime header among the tokens of a source. -/
namespace ImageLinker.Yul

def Token.isTrivia : Token → Bool
  | ⟨.lineComment, _⟩ | ⟨.blockComment, _⟩ => true
  | ⟨.single, [b]⟩ => b ∈ [0x09, 0x0a, 0x0c, 0x0d, 0x20]
  | _ => false

def objectName : Token := ⟨.name, ascii "object"⟩

def runtimeString : Token := ⟨.string, ascii "\"runtime\""⟩

def codeName : Token := ⟨.name, ascii "code"⟩

def openBrace : Token := ⟨.single, ascii "\x7b"⟩

/-- The tokens of `object "runtime" { code {` with white space and comments in between. -/
def IsHeader (header : List Token) : Prop :=
  ∃ t₁ t₂ t₃ t₄ : List Token, (∀ t ∈ t₁ ++ t₂ ++ t₃ ++ t₄, t.isTrivia) ∧
    header = objectName :: t₁ ++ runtimeString :: t₂ ++ openBrace :: t₃ ++ codeName :: t₄ ++
      [openBrace]

/-- A header that no other one begins ahead of. -/
structure FirstHeader (tokens before header behind : List Token) : Prop where
  split : tokens = before ++ header ++ behind
  isHeader : IsHeader header
  first {before' header' behind' : List Token} (h : tokens = before' ++ header' ++ behind')
    (hh : IsHeader header') : before.length ≤ before'.length

theorem IsHeader.ne_nil {header : List Token} (h : IsHeader header) : header ≠ [] := by
  obtain ⟨t₁, t₂, t₃, t₄, _, rfl⟩ := h
  exact List.cons_ne_nil _ _

theorem ascii_runtime :
    ascii "\"runtime\"" = 0x22 :: [0x72, 0x75, 0x6e, 0x74, 0x69, 0x6d, 0x65] ++ [0x22] := by cbv

theorem ascii_code : ascii "code" = [0x63, 0x6f, 0x64, 0x65] := by cbv

theorem ascii_brace : ascii "\x7b" = [0x7b] := by cbv

theorem fits_runtimeString (rest : List UInt8) : Fits runtimeString rest := by
  unfold runtimeString
  rw [ascii_runtime]
  refine .string ?_
  repeat first | exact .nil | refine .plain (by decide) (by decide) ?_

theorem fits_openBrace (rest : List UInt8) : Fits openBrace rest := by
  unfold openBrace
  rw [ascii_brace]
  refine .single (fun h => ?_) (by decide) (fun h => ?_) (fun h => ?_)
  · exact absurd (beginsName_iff.mpr h) (by decide)
  · exact absurd (List.cons_prefix_cons.mp h).1 (by decide)
  · exact absurd (List.cons_prefix_cons.mp h).1 (by decide)

theorem namePart_of_mem_codeName : ∀ c ∈ codeName.bytes, NamePart c := by
  intro c hc
  have hall : (ascii "code").all continuesName = true := by
    rw [ascii_code]
    decide
  exact continuesName_iff.mp (List.all_eq_true.mp hall c hc)

theorem fits_codeName {rest : List UInt8} (h : ∀ c ∈ rest.head?, ¬ NamePart c) :
    Fits codeName rest := by
  have hparts := namePart_of_mem_codeName
  unfold codeName at hparts ⊢
  rw [ascii_code] at hparts ⊢
  exact .name (beginsName_iff.mp (by decide)) (fun c hc => hparts c (List.mem_cons_of_mem _ hc)) h

theorem isSpace_iff {b : UInt8} : isSpace b = true ↔ b ∈ [0x09, 0x0a, 0x0c, 0x0d, 0x20] := by
  simp [isSpace, or_assoc]

theorem isSpace_of_nameStart {b : UInt8} (h : NameStart b) : isSpace b = false := by
  rw [Bool.eq_false_iff]
  intro hs
  rw [← beginsName_iff] at h
  simp only [isSpace, Bool.or_eq_true, beq_iff_eq] at hs
  obtain (((rfl | rfl) | rfl) | rfl) | rfl := hs <;> exact absurd h (by decide)

theorem skipTrivia_of_comment {l rest : List UInt8} (h : afterComment? l = some rest) :
    skipTrivia l = skipTrivia rest := by
  rw [skipTrivia]
  split
  · rename_i heq
    rw [h, Option.some.injEq] at heq
    rw [heq]
  · rename_i heq
    rw [h] at heq
    cases heq

theorem skipTrivia_cons {b : UInt8} {l : List UInt8} (h : afterComment? (b :: l) = none) :
    skipTrivia (b :: l) = if isSpace b then skipTrivia l else b :: l := by
  rw [skipTrivia]
  split
  · rename_i heq
    rw [h] at heq
    cases heq
  · rfl

theorem skipTrivia_nil : skipTrivia [] = [] := by
  rw [skipTrivia]
  rfl

theorem Fits.skipTrivia {t : Token} {rest : List UInt8} (h : Fits t rest) :
    Yul.skipTrivia (t.bytes ++ rest) =
      if t.isTrivia then Yul.skipTrivia rest else t.bytes ++ rest := by
  have hcomment := h.afterComment?
  cases h with
  | lineComment | lastLineComment | blockComment | lastBlockComment =>
    exact skipTrivia_of_comment hcomment
  | string | lastString | lastEscape => exact skipTrivia_cons hcomment
  | name hb =>
    refine (skipTrivia_cons hcomment).trans ?_
    rw [isSpace_of_nameStart hb]
    rfl
  | single =>
    refine (skipTrivia_cons hcomment).trans ?_
    simp only [isSpace_iff, Token.isTrivia, decide_eq_true_eq]
    rfl

/-- Skipping white space and comments skips whole tokens. -/
theorem skipTrivia_text {ts : List Token} (h : Lexing ts) :
    skipTrivia (text ts) = text (ts.dropWhile Token.isTrivia) := by
  induction h with
  | nil => exact skipTrivia_nil
  | @cons t ts ht _ ih =>
    rw [text_cons, ht.skipTrivia, List.dropWhile_cons, ih]
    split <;> rfl

def after? (t : Token) : List Token → Option (List Token)
  | [] => none
  | u :: us => if u = t then some us else none

def next? (t : Token) (ts : List Token) : Option (List Token) :=
  after? t (ts.dropWhile Token.isTrivia)

theorem after?_eq_some_iff {t : Token} {ts us : List Token} :
    after? t ts = some us ↔ ts = t :: us := by
  cases ts with
  | nil => simp [after?]
  | cons u ts =>
    rw [after?, List.cons.injEq]
    by_cases hu : u = t
    · rw [if_pos hu, Option.some.injEq, and_iff_right hu]
    · rw [if_neg hu]
      exact ⟨fun h => absurd h.symm (Option.some_ne_none _), fun h => absurd h.1 hu⟩

theorem next?_eq_some_iff {t : Token} {ts us : List Token} (ht : t.isTrivia = false) :
    next? t ts = some us ↔ ∃ trivia, (∀ u ∈ trivia, u.isTrivia) ∧ ts = trivia ++ t :: us := by
  rw [next?, after?_eq_some_iff]
  constructor
  · intro h
    refine ⟨ts.takeWhile Token.isTrivia, List.all_eq_true.mp List.all_takeWhile, ?_⟩
    rw [← h, List.takeWhile_append_dropWhile]
  · rintro ⟨trivia, htrivia, rfl⟩
    rw [List.dropWhile_append_of_pos htrivia, List.dropWhile_cons_of_neg (by rw [ht]; decide)]

theorem Lexing.dropTrivia {ts : List Token} (h : Lexing ts) :
    Lexing (ts.dropWhile Token.isTrivia) := by
  rw [← List.takeWhile_append_dropWhile (p := Token.isTrivia) (l := ts)] at h
  exact h.of_append

theorem Lexing.of_next? {t : Token} {ts us : List Token} (h : Lexing ts)
    (hn : next? t ts = some us) : Lexing us := by
  have hs := h.dropTrivia
  rw [after?_eq_some_iff.mp hn] at hs
  cases hs with
  | cons _ hs => exact hs

/-- The bytes of a token that may stand anywhere come next when that token does. -/
theorem expect?_text {t : Token} {ts : List Token} (ht : ∀ rest, Fits t rest) (h : Lexing ts) :
    expect? t.bytes (text ts) = (after? t ts).map text := by
  unfold expect?
  cases h with
  | nil =>
    rw [if_neg]
    · rfl
    · rw [List.isPrefixOf_iff_prefix]
      exact fun hp => absurd (ht []).length_pos (by simp [List.prefix_nil.mp hp])
  | @cons u us hu _ =>
    rw [after?, text_cons]
    by_cases hut : u = t
    · rw [hut, if_pos (by simp), if_pos rfl, List.drop_left]
      rfl
    · rw [if_neg hut, if_neg]
      · rfl
      · rw [List.isPrefixOf_iff_prefix]
        rintro ⟨rest, hrest⟩
        exact hut ((ht rest).unique hu hrest).1.symm

theorem expect?_skipTrivia {t : Token} {ts : List Token} (ht : ∀ rest, Fits t rest)
    (h : Lexing ts) : expect? t.bytes (skipTrivia (text ts)) = (next? t ts).map text := by
  rw [skipTrivia_text h, expect?_text ht h.dropTrivia]
  rfl

theorem Fits.not_namePart {bytes rest : List UInt8} (h : Fits ⟨.name, bytes⟩ rest) :
    ∀ c ∈ rest.head?, ¬ NamePart c := by
  cases h with
  | name _ _ hrest => exact hrest

/-- The letters of `code` are all that comes next of a name when that name does. -/
theorem takeWhile_text {ts : List Token} (h : Lexing ts) :
    (if (text ts).takeWhile continuesName = ascii "code" then
      some ((text ts).dropWhile continuesName) else none) = (after? codeName ts).map text := by
  cases h with
  | nil =>
    rw [if_neg (by rw [ascii_code]; exact (List.cons_ne_nil _ _).symm)]
    rfl
  | @cons u us hu _ =>
    rw [after?, text_cons]
    by_cases hut : u = codeName
    · rw [if_pos hut]
      subst hut
      rw [dropWhile_continuesName namePart_of_mem_codeName hu.not_namePart,
        takeWhile_continuesName namePart_of_mem_codeName hu.not_namePart]
      exact if_pos rfl
    · rw [if_neg hut, if_neg]
      · rfl
      · intro hcode
        have hsplit := List.takeWhile_append_dropWhile (p := continuesName)
          (l := u.bytes ++ text us)
        rw [hcode] at hsplit
        exact hut ((fits_codeName (not_namePart_head?_dropWhile _)).unique hu hsplit).1.symm

def headerTail? (ts : List Token) : Option (List Token) := do
  let ts ← next? runtimeString ts
  let ts ← next? openBrace ts
  let ts ← next? codeName ts
  next? openBrace ts

theorem afterHeader?_text {ts : List Token} (h : Lexing ts) :
    afterHeader? (text ts) = (headerTail? ts).map text := by
  unfold afterHeader? headerTail?
  rw [show ascii "\"runtime\"" = runtimeString.bytes from rfl,
    show ascii "\x7b" = openBrace.bytes from rfl, expect?_skipTrivia fits_runtimeString h]
  cases h₁ : next? runtimeString ts with
  | none => rfl
  | some ts₁ =>
    have hs₁ := h.of_next? h₁
    simp only [Option.map_some, Option.bind_eq_bind, Option.bind_some]
    rw [expect?_skipTrivia fits_openBrace hs₁]
    cases h₂ : next? openBrace ts₁ with
    | none => rfl
    | some ts₂ =>
      have hs₂ := hs₁.of_next? h₂
      simp only [Option.map_some, Option.bind_some]
      have hcode := takeWhile_text hs₂.dropTrivia
      rw [skipTrivia_text hs₂]
      cases h₃ : next? codeName ts₂ with
      | none =>
        rw [show after? codeName _ = none from h₃] at hcode
        split at hcode
        · cases hcode
        · rename_i hne
          rw [if_neg hne]
          rfl
      | some ts₃ =>
        have hs₃ := hs₂.of_next? h₃
        rw [show after? codeName _ = some ts₃ from h₃] at hcode
        split at hcode
        · rename_i heq
          rw [if_pos heq, Option.some.inj hcode]
          exact expect?_skipTrivia fits_openBrace hs₃
        · cases hcode

theorem headerTail?_eq_some_iff {ts behind : List Token} : headerTail? ts = some behind ↔
    ∃ header, IsHeader (objectName :: header) ∧ ts = header ++ behind := by
  have hruntime : runtimeString.isTrivia = false := rfl
  have hcode : codeName.isTrivia = false := rfl
  have hbrace : openBrace.isTrivia = false := by
    rw [openBrace, ascii_brace]
    decide
  simp only [headerTail?, Option.bind_eq_bind, Option.bind_eq_some_iff, next?_eq_some_iff hruntime,
    next?_eq_some_iff hcode, next?_eq_some_iff hbrace]
  constructor
  · rintro ⟨_, ⟨t₁, h₁, rfl⟩, _, ⟨t₂, h₂, rfl⟩, _, ⟨t₃, h₃, rfl⟩, t₄, h₄, rfl⟩
    refine ⟨t₁ ++ runtimeString :: t₂ ++ openBrace :: t₃ ++ codeName :: t₄ ++ [openBrace],
      ⟨t₁, t₂, t₃, t₄, ?_, rfl⟩, by simp⟩
    simp only [List.mem_append]
    rintro t (((ht | ht) | ht) | ht)
    · exact h₁ t ht
    · exact h₂ t ht
    · exact h₃ t ht
    · exact h₄ t ht
  · rintro ⟨header, ⟨t₁, t₂, t₃, t₄, h, heq⟩, rfl⟩
    simp only [List.mem_append] at h
    cases heq
    have h₁ : ∀ t ∈ t₁, t.isTrivia := fun t ht => h t (.inl (.inl (.inl ht)))
    have h₂ : ∀ t ∈ t₂, t.isTrivia := fun t ht => h t (.inl (.inl (.inr ht)))
    have h₃ : ∀ t ∈ t₃, t.isTrivia := fun t ht => h t (.inl (.inr ht))
    have h₄ : ∀ t ∈ t₄, t.isTrivia := fun t ht => h t (.inr ht)
    exact ⟨_, ⟨t₁, h₁, by simp⟩, _, ⟨t₂, h₂, rfl⟩, _, ⟨t₃, h₃, rfl⟩, t₄, h₄, rfl⟩

def afterFull? : List Token → Option (List Token)
  | [] => none
  | t :: ts => if t = objectName then headerTail? ts else none

/-- The tokens from the first header on, and those behind that header. -/
def findTokens? : List Token → Option (List Token × List Token)
  | [] => none
  | t :: ts =>
    match afterFull? (t :: ts) with
    | some behind => some (t :: ts, behind)
    | none => findTokens? ts

theorem afterFull?_eq_some_iff {ts behind : List Token} :
    afterFull? ts = some behind ↔ ∃ header, IsHeader header ∧ ts = header ++ behind := by
  constructor
  · intro h
    cases ts with
    | nil => cases h
    | cons t ts =>
      rw [afterFull?] at h
      split at h
      · rename_i ht
        obtain ⟨header, hheader, rfl⟩ := headerTail?_eq_some_iff.mp h
        exact ⟨objectName :: header, hheader, ht ▸ rfl⟩
      · cases h
  · rintro ⟨header, hheader, rfl⟩
    obtain ⟨rest, rfl⟩ : ∃ rest, header = objectName :: rest := by
      obtain ⟨t₁, t₂, t₃, t₄, _, rfl⟩ := hheader
      exact ⟨_, rfl⟩
    rw [List.cons_append, afterFull?, if_pos rfl]
    exact headerTail?_eq_some_iff.mpr ⟨rest, hheader, rfl⟩

theorem findHeader?_nil : findHeader? [] = none := by
  rw [findHeader?]
  rfl

theorem findHeader?_of_comment {l rest : List UInt8} (h : afterComment? l = some rest) :
    findHeader? l = findHeader? rest := by
  rw [findHeader?]
  split
  · rename_i heq
    rw [h, Option.some.injEq] at heq
    rw [heq]
  · rename_i heq
    rw [h] at heq
    cases heq

theorem findHeader?_cons {b : UInt8} {l : List UInt8} (h : afterComment? (b :: l) = none) :
    findHeader? (b :: l) =
      if b = 0x22 then findHeader? (afterString l)
      else if beginsName b then
        if b :: l.takeWhile continuesName = ascii "object" then
          match afterHeader? (l.dropWhile continuesName) with
          | some body => some (b :: l, body)
          | none => findHeader? (l.dropWhile continuesName)
        else findHeader? (l.dropWhile continuesName)
      else findHeader? l := by
  rw [findHeader?]
  split
  · rename_i heq
    rw [h] at heq
    cases heq
  · rfl

theorem Fits.findHeader? {t : Token} {rest : List UInt8} (h : Fits t rest) :
    Yul.findHeader? (t.bytes ++ rest) =
      if t = objectName then
        match afterHeader? rest with
        | some body => some (t.bytes ++ rest, body)
        | none => Yul.findHeader? rest
      else Yul.findHeader? rest := by
  have hcomment := h.afterComment?
  have hcut := h.cut?
  have hkind (hk : t.kind ≠ .name) : t ≠ objectName := fun ht => hk (ht ▸ rfl)
  cases h with
  | lineComment | lastLineComment | blockComment | lastBlockComment =>
    rw [if_neg (hkind nofun)]
    exact findHeader?_of_comment hcomment
  | string | lastString | lastEscape =>
    rw [if_neg (hkind nofun)]
    refine (findHeader?_cons hcomment).trans ?_
    rw [if_pos rfl]
    exact congrArg Yul.findHeader? (Prod.mk.inj (Option.some.inj hcut)).2
  | single hb hq =>
    rw [if_neg (hkind nofun)]
    refine (findHeader?_cons hcomment).trans ?_
    rw [if_neg hq, if_neg fun hbegins => hb (beginsName_iff.mp hbegins)]
    rfl
  | @name b part _ hb hpart hrest =>
    have hobject : b :: part = ascii "object" ↔ (⟨.name, b :: part⟩ : Token) = objectName := by
      rw [objectName, Token.mk.injEq, and_iff_right rfl]
    refine (findHeader?_cons hcomment).trans ?_
    rw [if_neg hb.ne_quote, if_pos (beginsName_iff.mpr hb),
      List.append_eq, dropWhile_continuesName hpart hrest, takeWhile_continuesName hpart hrest]
    simp only [hobject]
    rfl

theorem findHeader?_text {ts : List Token} (h : Lexing ts) :
    findHeader? (text ts) =
      (findTokens? ts).map fun (start, behind) => (text start, text behind) := by
  induction h with
  | nil => exact findHeader?_nil
  | @cons t ts ht hs ih =>
    rw [text_cons, ht.findHeader?, afterHeader?_text hs, findTokens?, afterFull?, ih]
    split
    · cases headerTail? ts <;> rfl
    · rfl

theorem FirstHeader.cons {t : Token} {ts before header behind : List Token}
    (hnone : afterFull? (t :: ts) = none) :
    FirstHeader (t :: ts) (t :: before) header behind ↔ FirstHeader ts before header behind := by
  constructor
  · rintro ⟨hsplit, hheader, hfirst⟩
    refine ⟨(List.cons.inj hsplit).2, hheader, @fun before' header' behind' h hh => ?_⟩
    exact Nat.le_of_succ_le_succ (@hfirst (t :: before') header' behind' (congrArg (t :: ·) h) hh)
  · rintro ⟨hsplit, hheader, hfirst⟩
    refine ⟨congrArg (t :: ·) hsplit, hheader, @fun before' header' behind' h hh => ?_⟩
    cases before' with
    | nil => exact absurd (afterFull?_eq_some_iff.mpr ⟨header', hh, h⟩) (by simp [hnone])
    | cons u before' => exact Nat.succ_le_succ (hfirst (List.cons.inj h).2 hh)

/-- The search finds the first header. -/
theorem findTokens?_eq_some_iff {ts start behind : List Token} :
    findTokens? ts = some (start, behind) ↔
      ∃ before header, start = header ++ behind ∧ FirstHeader ts before header behind := by
  induction ts with
  | nil =>
    refine ⟨fun h => absurd h.symm (Option.some_ne_none _), ?_⟩
    rintro ⟨before, header, -, h⟩
    have hnil := (List.append_eq_nil_iff.mp h.split.symm).1
    exact absurd (List.append_eq_nil_iff.mp hnil).2 h.isHeader.ne_nil
  | cons t ts ih =>
    cases hfull : afterFull? (t :: ts) with
    | some found =>
      simp only [findTokens?, hfull, Option.some.injEq, Prod.mk.injEq]
      obtain ⟨header, hheader, hsplit⟩ := afterFull?_eq_some_iff.mp hfull
      constructor
      · rintro ⟨rfl, rfl⟩
        exact ⟨[], header, hsplit, hsplit, hheader, fun _ _ => Nat.zero_le _⟩
      · rintro ⟨before, header', rfl, h⟩
        -- a header at the start is ahead of all others
        have hlen : before.length ≤ ([] : List Token).length := h.first hsplit hheader
        obtain rfl := List.eq_nil_of_length_eq_zero (Nat.le_zero.mp hlen)
        have hfull' := afterFull?_eq_some_iff.mpr ⟨header', h.isHeader, h.split⟩
        rw [hfull, Option.some.injEq] at hfull'
        exact ⟨h.split, hfull'⟩
    | none =>
      simp only [findTokens?, hfull, ih]
      constructor
      · rintro ⟨before, header, hstart, h⟩
        exact ⟨t :: before, header, hstart, (FirstHeader.cons hfull).mpr h⟩
      · rintro ⟨before, header, hstart, h⟩
        cases before with
        | nil =>
          have hfull' := afterFull?_eq_some_iff.mpr ⟨header, h.isHeader, h.split⟩
          rw [hfull] at hfull'
          cases hfull'
        | cons u before =>
          obtain rfl := (List.cons.inj h.split).1
          exact ⟨before, header, hstart, (FirstHeader.cons hfull).mp h⟩

/-- The search fails when there is no header. -/
theorem findTokens?_eq_none_iff {ts : List Token} :
    findTokens? ts = none ↔ ∀ header, IsHeader header → ¬ header <:+: ts := by
  constructor
  · intro h header hheader
    induction ts with
    | nil => exact fun hi => hheader.ne_nil (List.eq_nil_of_infix_nil hi)
    | cons t ts ih =>
      cases hfull : afterFull? (t :: ts) with
      | some found =>
        rw [findTokens?, hfull] at h
        cases h
      | none =>
        rw [findTokens?, hfull] at h
        rw [List.infix_cons_iff]
        rintro (⟨behind, hprefix⟩ | hinfix)
        · have hfull' := afterFull?_eq_some_iff.mpr ⟨header, hheader, hprefix.symm⟩
          rw [hfull] at hfull'
          cases hfull'
        · exact ih h hinfix
  · intro h
    cases hfind : findTokens? ts with
    | none => rfl
    | some found =>
      obtain ⟨before, header, _, hfirst⟩ := findTokens?_eq_some_iff.mp hfind
      exact absurd ⟨before, found.2, hfirst.split.symm⟩ (h header hfirst.isHeader)

/-- Every source has one sequence of tokens, and what the scanner returns is where the first header
among them begins and where it ends; it returns nothing just when there is no header. -/
theorem findRuntimeBlock_exact (source : String) : ∃ tokens,
    (Lexing tokens ∧ text tokens = source.toUTF8.toList) ∧
    (∀ others, Lexing others → text others = source.toUTF8.toList → others = tokens) ∧
    (∀ start stop, findRuntimeBlock source = some (start, stop) ↔
      ∃ before header behind, FirstHeader tokens before header behind ∧
        start = (text before).length ∧ stop = (text (before ++ header)).length) ∧
    (findRuntimeBlock source = none ↔ ∀ header, IsHeader header → ¬ header <:+: tokens) := by
  obtain ⟨tokens, hlex, htext⟩ := exists_lexing source.toUTF8.toList
  have hfind : findRuntimeBlock source = (findTokens? tokens).map fun (start, behind) =>
      ((text tokens).length - (text start).length,
        (text tokens).length - (text behind).length) := by
    rw [findRuntimeBlock, ← htext, findHeader?_text hlex, Option.map_map]
    rfl
  have hpositions {before header behind : List Token}
      (h : FirstHeader tokens before header behind) :
      (text tokens).length - (text (header ++ behind)).length = (text before).length ∧
      (text tokens).length - (text behind).length = (text (before ++ header)).length := by
    rw [h.split]
    simp only [text_append, List.length_append]
    omega
  refine ⟨tokens, ⟨hlex, htext⟩, fun others ho h => ho.unique hlex (h.trans htext.symm), ?_, ?_⟩
  · intro start stop
    rw [hfind, Option.map_eq_some_iff]
    constructor
    · rintro ⟨⟨rest, behind⟩, hfound, heq⟩
      obtain ⟨before, header, rfl, hfirst⟩ := findTokens?_eq_some_iff.mp hfound
      obtain ⟨rfl, rfl⟩ := Prod.mk.inj heq
      exact ⟨before, header, behind, hfirst, hpositions hfirst⟩
    · rintro ⟨before, header, behind, hfirst, rfl, rfl⟩
      refine ⟨(header ++ behind, behind),
        findTokens?_eq_some_iff.mpr ⟨before, header, rfl, hfirst⟩, ?_⟩
      exact Prod.mk.injEq .. ▸ hpositions hfirst
  · rw [hfind, Option.map_eq_none_iff, findTokens?_eq_none_iff]

end ImageLinker.Yul
