import Mathlib
import ImageLinker.Yul.Header

/-!
The tokens of a source. Which tokens a text has is said by what their bytes are and by what may
follow them; every text has exactly one sequence of them.
-/
namespace ImageLinker.Yul

inductive TokenKind where
  | lineComment
  | blockComment
  | string
  | name
  | single
  deriving DecidableEq

structure Token where
  kind : TokenKind
  bytes : List UInt8
  deriving DecidableEq

def text (tokens : List Token) : List UInt8 := tokens.flatMap Token.bytes

def NameStart (b : UInt8) : Prop :=
  (Char.ofUInt8 b).isAlpha ∨ Char.ofUInt8 b = '_' ∨ Char.ofUInt8 b = '$'

def NamePart (b : UInt8) : Prop :=
  NameStart b ∨ (Char.ofUInt8 b).isDigit ∨ Char.ofUInt8 b = '.'

/-- The inside of a string: no quote stands alone, and each backslash goes with the byte behind
it. -/
inductive StringBody : List UInt8 → Prop
  | nil : StringBody []
  | plain {b : UInt8} {body : List UInt8} (hq : b ≠ 0x22) (hb : b ≠ 0x5c)
      (h : StringBody body) : StringBody (b :: body)
  | escaped {b : UInt8} {body : List UInt8} (h : StringBody body) :
      StringBody (0x5c :: b :: body)

/-- A token that may stand in front of a text. Comments and strings that are not closed run to the
end of the text, and names are as long as they can be. -/
inductive Fits : Token → List UInt8 → Prop
  | lineComment {body rest : List UInt8} (h : 0x0a ∉ body) :
      Fits ⟨.lineComment, 0x2f :: 0x2f :: body ++ [0x0a]⟩ rest
  | lastLineComment {body : List UInt8} (h : 0x0a ∉ body) :
      Fits ⟨.lineComment, 0x2f :: 0x2f :: body⟩ []
  | blockComment {body rest : List UInt8} (h : ¬ [0x2a, 0x2f] <:+: body ++ [0x2a]) :
      Fits ⟨.blockComment, 0x2f :: 0x2a :: body ++ [0x2a, 0x2f]⟩ rest
  | lastBlockComment {body : List UInt8} (h : ¬ [0x2a, 0x2f] <:+: body) :
      Fits ⟨.blockComment, 0x2f :: 0x2a :: body⟩ []
  | string {body rest : List UInt8} (h : StringBody body) :
      Fits ⟨.string, 0x22 :: body ++ [0x22]⟩ rest
  | lastString {body : List UInt8} (h : StringBody body) : Fits ⟨.string, 0x22 :: body⟩ []
  | lastEscape {body : List UInt8} (h : StringBody body) :
      Fits ⟨.string, 0x22 :: body ++ [0x5c]⟩ []
  | name {b : UInt8} {part rest : List UInt8} (hb : NameStart b) (hpart : ∀ c ∈ part, NamePart c)
      (hrest : ∀ c ∈ rest.head?, ¬ NamePart c) : Fits ⟨.name, b :: part⟩ rest
  | single {b : UInt8} {rest : List UInt8} (hb : ¬ NameStart b) (hq : b ≠ 0x22)
      (hl : ¬ [0x2f, 0x2f] <+: b :: rest) (hc : ¬ [0x2f, 0x2a] <+: b :: rest) :
      Fits ⟨.single, [b]⟩ rest

/-- Tokens each of which may stand in front of the text of those behind it. -/
inductive Lexing : List Token → Prop
  | nil : Lexing []
  | cons {t : Token} {ts : List Token} (ht : Fits t (text ts)) (hs : Lexing ts) : Lexing (t :: ts)

@[simp] theorem text_nil : text [] = [] := rfl

@[simp] theorem text_cons (t : Token) (ts : List Token) : text (t :: ts) = t.bytes ++ text ts := rfl

@[simp] theorem text_append (ts us : List Token) : text (ts ++ us) = text ts ++ text us :=
  List.flatMap_append

theorem Lexing.of_append {ts us : List Token} (h : Lexing (ts ++ us)) : Lexing us := by
  induction ts with
  | nil => exact h
  | cons t ts ih =>
    cases h with
    | cons _ hs => exact ih hs

theorem beginsName_iff {b : UInt8} : beginsName b = true ↔ NameStart b := by
  simp [beginsName, isLetter, NameStart, Char.isAlpha, Char.isUpper, Char.isLower, Char.ofUInt8,
    Char.ext_iff, UInt8.le_iff_toNat_le, UInt32.le_iff_toNat_le, ← UInt8.toNat_inj,
    ← UInt32.toNat_inj]
  omega

theorem continuesName_iff {b : UInt8} : continuesName b = true ↔ NamePart b := by
  simp [continuesName, beginsName_iff, isDigit, NamePart, Char.isDigit, Char.ofUInt8, Char.ext_iff,
    UInt8.le_iff_toNat_le, UInt32.le_iff_toNat_le, ← UInt8.toNat_inj, ← UInt32.toNat_inj, or_assoc]

theorem afterLine_append {body rest : List UInt8} (h : 0x0a ∉ body) :
    afterLine (body ++ 0x0a :: rest) = rest := by
  induction body with
  | nil => rfl
  | cons b body ih =>
    have hb : b ≠ 0x0a := fun hb => h (hb ▸ List.mem_cons_self)
    rw [List.cons_append, afterLine, ih fun hm => h (List.mem_cons_of_mem _ hm)]
    exact hb

theorem afterLine_of_not_mem {body : List UInt8} (h : 0x0a ∉ body) : afterLine body = [] := by
  induction body with
  | nil => rfl
  | cons b body ih =>
    have hb : b ≠ 0x0a := fun hb => h (hb ▸ List.mem_cons_self)
    rw [afterLine, ih fun hm => h (List.mem_cons_of_mem _ hm)]
    exact hb

theorem afterBlock_append {body rest : List UInt8} (h : ¬ [0x2a, 0x2f] <:+: body ++ [0x2a]) :
    afterBlock (body ++ 0x2a :: 0x2f :: rest) = rest := by
  induction body with
  | nil => rfl
  | cons b body ih =>
    have hbody : ¬ [0x2a, 0x2f] <:+: body ++ [0x2a] := fun hi =>
      h (hi.trans (List.suffix_cons b _).isInfix)
    rw [List.cons_append, afterBlock, ih hbody]
    -- the byte in front does not close the comment together with the next one
    rintro tail rfl heq
    cases body with
    | nil => cases heq
    | cons c body =>
      cases heq
      exact h ⟨[], body ++ [0x2a], rfl⟩

theorem afterBlock_of_not_closed {body : List UInt8} (h : ¬ [0x2a, 0x2f] <:+: body) :
    afterBlock body = [] := by
  induction body with
  | nil => rfl
  | cons b body ih =>
    rw [afterBlock, ih fun hi => h (hi.trans (List.suffix_cons b _).isInfix)]
    rintro tail rfl rfl
    exact h ⟨[], tail, rfl⟩

theorem afterString_append {body : List UInt8} (h : StringBody body) (rest : List UInt8) :
    afterString (body ++ rest) = afterString rest := by
  induction h with
  | nil => rfl
  | plain hq hb _ ih =>
    rw [List.cons_append, afterString, ih]
    · exact fun _ _ hc => absurd hc hb
    · exact hq
  | escaped _ ih => exact ih

theorem afterString_of_body {body : List UInt8} (h : StringBody body) : afterString body = [] := by
  have := afterString_append h []
  rwa [List.append_nil] at this

theorem afterComment?_eq_none {l : List UInt8} (hl : ¬ [0x2f, 0x2f] <+: l)
    (hb : ¬ [0x2f, 0x2a] <+: l) : afterComment? l = none := by
  unfold afterComment?
  split
  · exact absurd (List.prefix_append [0x2f, 0x2f] _) hl
  · exact absurd (List.prefix_append [0x2f, 0x2a] _) hb
  · rfl

theorem NameStart.not_slash {b c : UInt8} {l : List UInt8} (h : NameStart b) :
    ¬ [0x2f, c] <+: b :: l := by
  intro hp
  rw [List.cons_prefix_cons] at hp
  rw [← hp.1, ← beginsName_iff] at h
  exact absurd h (by decide)

theorem NameStart.ne_quote {b : UInt8} (h : NameStart b) : b ≠ 0x22 := by
  rintro rfl
  rw [← beginsName_iff] at h
  exact absurd h (by decide)

def TokenKind.isComment : TokenKind → Bool
  | .lineComment | .blockComment => true
  | _ => false

theorem Fits.afterComment? {t : Token} {rest : List UInt8} (h : Fits t rest) :
    Yul.afterComment? (t.bytes ++ rest) = if t.kind.isComment then some rest else none := by
  cases h with
  | lineComment h =>
    rw [List.append_assoc]
    exact congrArg some (afterLine_append h)
  | lastLineComment h =>
    rw [List.append_nil]
    exact congrArg some (afterLine_of_not_mem h)
  | blockComment h =>
    rw [List.append_assoc]
    exact congrArg some (afterBlock_append h)
  | lastBlockComment h =>
    rw [List.append_nil]
    exact congrArg some (afterBlock_of_not_closed h)
  | string | lastString | lastEscape => rfl
  | name hb => exact afterComment?_eq_none hb.not_slash hb.not_slash
  | single _ _ hl hc => exact afterComment?_eq_none hl hc

theorem dropWhile_continuesName {part rest : List UInt8} (hpart : ∀ c ∈ part, NamePart c)
    (hrest : ∀ c ∈ rest.head?, ¬ NamePart c) : (part ++ rest).dropWhile continuesName = rest := by
  rw [List.dropWhile_append_of_pos fun c hc => continuesName_iff.mpr (hpart c hc)]
  cases rest with
  | nil => rfl
  | cons c rest =>
    exact List.dropWhile_cons_of_neg fun hc => hrest c rfl (continuesName_iff.mp hc)

theorem takeWhile_continuesName {part rest : List UInt8} (hpart : ∀ c ∈ part, NamePart c)
    (hrest : ∀ c ∈ rest.head?, ¬ NamePart c) : (part ++ rest).takeWhile continuesName = part := by
  have hsplit := List.takeWhile_append_dropWhile (p := continuesName) (l := part ++ rest)
  rw [dropWhile_continuesName hpart hrest] at hsplit
  exact List.append_cancel_right hsplit

/-- The kind of the token at the start of a text and the text behind it, told from the first bytes
alone. -/
def cut? : List UInt8 → Option (TokenKind × List UInt8)
  | [] => none
  | b :: rest =>
    match afterComment? (b :: rest) with
    | some behind => some (if rest.head? = some 0x2f then .lineComment else .blockComment, behind)
    | none =>
      if b = 0x22 then some (.string, afterString rest)
      else if beginsName b then some (.name, rest.dropWhile continuesName)
      else some (.single, rest)

theorem Fits.cut? {t : Token} {rest : List UInt8} (h : Fits t rest) :
    Yul.cut? (t.bytes ++ rest) = some (t.kind, rest) := by
  have hcomment := h.afterComment?
  cases h with
  | lineComment | lastLineComment | blockComment | lastBlockComment =>
    simp only [List.cons_append] at hcomment ⊢
    rw [Yul.cut?, hcomment]
    rfl
  | string h =>
    rw [List.append_assoc]
    exact congrArg (fun behind => some (TokenKind.string, behind)) (afterString_append h _)
  | lastString h =>
    rw [List.append_nil]
    exact congrArg (fun behind => some (TokenKind.string, behind)) (afterString_of_body h)
  | lastEscape h =>
    rw [List.append_nil]
    exact congrArg (fun behind => some (TokenKind.string, behind)) (afterString_append h _)
  | name hb hpart hrest =>
    rw [List.cons_append, Yul.cut?, afterComment?_eq_none hb.not_slash hb.not_slash]
    dsimp only
    rw [if_neg hb.ne_quote, if_pos (beginsName_iff.mpr hb), dropWhile_continuesName hpart hrest]
  | single hb hq hl hc =>
    rw [List.cons_append, List.nil_append, Yul.cut?, afterComment?_eq_none hl hc]
    dsimp only
    rw [if_neg hq, if_neg fun h => hb (beginsName_iff.mp h)]

/-- At most one token may stand at the start of a text. -/
theorem Fits.unique {t u : Token} {rest rest' : List UInt8} (ht : Fits t rest) (hu : Fits u rest')
    (h : t.bytes ++ rest = u.bytes ++ rest') : t = u ∧ rest = rest' := by
  have hcut := ht.cut?
  rw [h, hu.cut?, Option.some.injEq, Prod.mk.injEq] at hcut
  obtain ⟨hkind, rfl⟩ := hcut
  have hbytes := List.append_cancel_right h
  cases t
  cases u
  cases hkind
  cases hbytes
  exact ⟨rfl, rfl⟩

theorem Fits.length_pos {t : Token} {rest : List UInt8} (h : Fits t rest) : 0 < t.bytes.length := by
  cases h <;> exact Nat.succ_pos _

theorem Fits.append_ne_nil {t : Token} {rest : List UInt8} (h : Fits t rest) :
    t.bytes ++ rest ≠ [] := by
  have hne : t.bytes ≠ [] := List.ne_nil_of_length_pos h.length_pos
  exact List.append_ne_nil_of_left_ne_nil hne rest

theorem exists_first_close {l : List UInt8} (h : [0x2a, 0x2f] <:+: l) :
    ∃ body rest, l = body ++ [0x2a, 0x2f] ++ rest ∧ ¬ [0x2a, 0x2f] <:+: body ++ [0x2a] := by
  induction l with
  | nil => exact absurd (List.eq_nil_of_infix_nil h) (List.cons_ne_nil _ _)
  | cons b l ih =>
    by_cases hp : [0x2a, 0x2f] <+: b :: l
    · obtain ⟨rest, hrest⟩ := hp
      exact ⟨[], rest, hrest.symm, fun hi => absurd hi.length_le (by decide)⟩
    · obtain hi | hi := List.infix_cons_iff.mp h
      · exact absurd hi hp
      · obtain ⟨body, rest, rfl, hbody⟩ := ih hi
        refine ⟨b :: body, rest, rfl, fun hbad => ?_⟩
        obtain hi | hi := List.infix_cons_iff.mp hbad
        · exact hp (hi.trans ⟨0x2f :: rest, by simp⟩)
        · exact hbody hi

theorem exists_stringBody (l : List UInt8) : ∃ body, StringBody body ∧
    ((∃ rest, l = body ++ 0x22 :: rest) ∨ l = body ∨ l = body ++ [0x5c]) := by
  fun_induction afterString l with
  | case1 => exact ⟨[], .nil, .inr (.inl rfl)⟩
  | case2 b rest ih =>
    obtain ⟨body, hbody, ⟨tail, rfl⟩ | rfl | rfl⟩ := ih
    · exact ⟨_, hbody.escaped, .inl ⟨tail, rfl⟩⟩
    · exact ⟨_, hbody.escaped, .inr (.inl rfl)⟩
    · exact ⟨_, hbody.escaped, .inr (.inr rfl)⟩
  | case3 rest => exact ⟨[], .nil, .inl ⟨rest, rfl⟩⟩
  | case4 b rest hescape hquote ih =>
    by_cases hb : b = 0x5c
    · cases rest with
      | nil => exact ⟨[], .nil, .inr (.inr (hb ▸ rfl))⟩
      | cons c rest => exact absurd rfl (hescape c rest hb)
    · obtain ⟨body, hbody, ⟨tail, rfl⟩ | rfl | rfl⟩ := ih
      · exact ⟨_, hbody.plain hquote hb, .inl ⟨tail, rfl⟩⟩
      · exact ⟨_, hbody.plain hquote hb, .inr (.inl rfl)⟩
      · exact ⟨_, hbody.plain hquote hb, .inr (.inr rfl)⟩

theorem exists_lineComment (l : List UInt8) :
    ∃ t rest, Fits t rest ∧ t.bytes ++ rest = 0x2f :: 0x2f :: l := by
  by_cases h : 0x0a ∈ l
  · obtain ⟨body, rest, rfl, hbody⟩ := List.eq_append_cons_of_mem h
    exact ⟨_, rest, .lineComment hbody, by simp⟩
  · exact ⟨_, [], .lastLineComment h, List.append_nil _⟩

theorem exists_blockComment (l : List UInt8) :
    ∃ t rest, Fits t rest ∧ t.bytes ++ rest = 0x2f :: 0x2a :: l := by
  by_cases h : [0x2a, 0x2f] <:+: l
  · obtain ⟨body, rest, rfl, hbody⟩ := exists_first_close h
    exact ⟨_, rest, .blockComment hbody, by simp⟩
  · exact ⟨_, [], .lastBlockComment h, List.append_nil _⟩

theorem exists_string (l : List UInt8) :
    ∃ t rest, Fits t rest ∧ t.bytes ++ rest = 0x22 :: l := by
  obtain ⟨body, hbody, ⟨rest, rfl⟩ | rfl | rfl⟩ := exists_stringBody l
  · exact ⟨_, rest, .string hbody, by simp⟩
  · exact ⟨_, [], .lastString hbody, List.append_nil _⟩
  · exact ⟨_, [], .lastEscape hbody, List.append_nil _⟩

theorem not_namePart_head?_dropWhile (l : List UInt8) :
    ∀ c ∈ (l.dropWhile continuesName).head?, ¬ NamePart c := by
  intro c hc hpart
  have := List.head?_dropWhile_not continuesName l
  rw [Option.mem_def.mp hc] at this
  exact absurd (continuesName_iff.mpr hpart) (by simpa using this)

theorem exists_name {b : UInt8} (h : NameStart b) (l : List UInt8) :
    ∃ t rest, Fits t rest ∧ t.bytes ++ rest = b :: l := by
  refine ⟨⟨.name, b :: l.takeWhile continuesName⟩, l.dropWhile continuesName,
    .name h (fun c hc => ?_) (not_namePart_head?_dropWhile l),
    congrArg (b :: ·) List.takeWhile_append_dropWhile⟩
  exact continuesName_iff.mp (List.all_eq_true.mp List.all_takeWhile c hc)

/-- Some token stands at the start of every text that is not empty. -/
theorem exists_fits (b : UInt8) (l : List UInt8) :
    ∃ t rest, Fits t rest ∧ t.bytes ++ rest = b :: l := by
  by_cases hline : [0x2f, 0x2f] <+: b :: l
  · obtain ⟨body, hbody⟩ := hline
    exact hbody ▸ exists_lineComment body
  by_cases hblock : [0x2f, 0x2a] <+: b :: l
  · obtain ⟨body, hbody⟩ := hblock
    exact hbody ▸ exists_blockComment body
  by_cases hquote : b = 0x22
  · exact hquote ▸ exists_string l
  by_cases hname : NameStart b
  · exact exists_name hname l
  exact ⟨⟨.single, [b]⟩, l, .single hname hquote hline hblock, rfl⟩

theorem exists_lexing (l : List UInt8) : ∃ ts, Lexing ts ∧ text ts = l := by
  induction h : l.length using Nat.strongRecOn generalizing l with
  | _ n ih =>
    cases l with
    | nil => exact ⟨[], .nil, rfl⟩
    | cons b l =>
      obtain ⟨t, rest, ht, hl⟩ := exists_fits b l
      have hlen : t.bytes.length + rest.length = n := by rw [← List.length_append, hl, h]
      obtain ⟨ts, hs, rfl⟩ := ih rest.length (by have := ht.length_pos; omega) rest rfl
      exact ⟨t :: ts, .cons ht hs, hl⟩

theorem Lexing.unique {ts us : List Token} (ht : Lexing ts) (hu : Lexing us)
    (h : text ts = text us) : ts = us := by
  induction ht generalizing us with
  | nil =>
    cases hu with
    | nil => rfl
    | cons hfit _ => exact absurd h.symm hfit.append_ne_nil
  | cons hfit _ ih =>
    cases hu with
    | nil => exact absurd h hfit.append_ne_nil
    | cons hfit' hs =>
      obtain ⟨rfl, hrest⟩ := hfit.unique hfit' h
      rw [ih hs hrest]

end ImageLinker.Yul
