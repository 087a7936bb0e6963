import ImageLinker.Proofs.Agreement
import ImageLinker.Proofs.Hexadecimal.Spelling

/-!
The bytes that a compiler prints are read back from its text in any spelling, between a banner that
does not run into them and what no digit is in. What is read is the last run of digits. It is the
last word of digits only where white space or an end of the text stands on both sides of it, and a
fragment of a word everywhere else.
-/
namespace ImageLinker

namespace Text

def words (cs : List Char) : List (List Char) := (cs.splitOnP isBlank).filter (!·.isEmpty)

/-- White space or an end of the text on both sides. -/
structure Delimits (front back : List Char) : Prop where
  before : ∀ c ∈ front.getLast?, isBlank c = true
  behind : ∀ c ∈ back.head?, isBlank c = true

theorem words_append_cons (front back : List Char) {c : Char} (hc : isBlank c = true) :
    words (front ++ c :: back) = words front ++ words back := by
  rw [words, List.splitOnP_append_cons _ _ hc, List.filter_append]
  rfl

theorem words_append {front back : List Char}
    (h : (∀ c ∈ front.getLast?, isBlank c = true) ∨ ∀ c ∈ back.head?, isBlank c = true) :
    words (front ++ back) = words front ++ words back := by
  rcases h with h | h
  · rcases List.eq_nil_or_concat' front with rfl | ⟨front, c, rfl⟩
    · rfl
    · have hc : isBlank c = true := h c (by simp)
      have hfront : words (front ++ [c]) = words front := by
        rw [words_append_cons front [] hc]
        exact List.append_nil _
      rw [List.append_assoc, List.singleton_append, words_append_cons _ _ hc, hfront]
  · cases back with
    | nil => rw [List.append_nil]; exact (List.append_nil _).symm
    | cons c back =>
      have hc : isBlank c = true := h c rfl
      have hback : words (c :: back) = words back := words_append_cons [] back hc
      rw [words_append_cons _ _ hc, hback]

theorem words_of_not_blank {cs : List Char} (hne : cs ≠ []) (h : ∀ c ∈ cs, isBlank c = false) :
    words cs = [cs] := by
  rw [words, List.splitOnP_eq_singleton h]
  simp [hne]

theorem mem_of_mem_splitOnP {α : Type} {p : α → Bool} {l part : List α}
    (h : part ∈ l.splitOnP p) : ∀ a ∈ part, a ∈ l := by
  induction l generalizing part with
  | nil =>
    rw [List.splitOnP_nil, List.mem_singleton] at h
    rw [h]
    exact fun _ ha => ha
  | cons b l ih =>
    obtain ⟨first, others, hsplit⟩ := List.exists_cons_of_ne_nil (List.splitOnP_ne_nil p l)
    rw [List.splitOnP_cons_eq_if_modifyHead, hsplit] at h
    rw [hsplit] at ih
    intro a ha
    split_ifs at h
    · rcases List.mem_cons.mp h with rfl | h
      · cases ha
      · exact List.mem_cons_of_mem b (ih h a ha)
    · rw [List.modifyHead_cons] at h
      rcases List.mem_cons.mp h with rfl | h
      · rcases List.mem_cons.mp ha with rfl | ha
        · exact List.mem_cons_self
        · exact List.mem_cons_of_mem b (ih List.mem_cons_self a ha)
      · exact List.mem_cons_of_mem b (ih (List.mem_cons_of_mem _ h) a ha)

theorem mem_of_mem_words {cs word : List Char} (h : word ∈ words cs) :
    word ≠ [] ∧ ∀ c ∈ word, c ∈ cs := by
  obtain ⟨hsplit, hne⟩ := List.mem_filter.mp h
  exact ⟨by simpa using hne, mem_of_mem_splitOnP hsplit⟩

/-- Around every place a text can be parted so that no white space is nearer. -/
theorem exists_delimits (front back : List Char) : ∃ front' left right back',
    front = front' ++ left ∧ back = right ++ back' ∧ Delimits front' back' ∧
      (∀ c ∈ left, isBlank c = false) ∧ ∀ c ∈ right, isBlank c = false := by
  refine ⟨(front.reverse.dropWhile (!isBlank ·)).reverse,
    (front.reverse.takeWhile (!isBlank ·)).reverse, back.takeWhile (!isBlank ·),
    back.dropWhile (!isBlank ·), ?_, ?_, ⟨fun c hc => ?_, fun c hc => ?_⟩, fun c hc => ?_,
    fun c hc => ?_⟩
  · rw [← List.reverse_append, List.takeWhile_append_dropWhile, List.reverse_reverse]
  · rw [List.takeWhile_append_dropWhile]
  · rw [List.getLast?_reverse] at hc
    simpa using head?_dropWhile c hc
  · simpa using head?_dropWhile c hc
  · simpa using List.mem_takeWhile_imp (List.mem_reverse.mp hc)
  · simpa using List.mem_takeWhile_imp hc

end Text

namespace Hex

def lastWordThat (kind : List Char → Bool) (text : String) : Option String :=
  ((Text.words text.toList).filter kind).getLast?.map String.ofList

def lastWordOfDigits : String → Option String := lastWordThat (·.all isDigit)

def lastWordWithDigit : String → Option String := lastWordThat (·.any isDigit)

/-- The last word that has a digit in it is made of digits. -/
def Framed (text : String) : Prop :=
  ∀ word ∈ lastWordWithDigit text, ∀ c ∈ word.toList, isDigit c = true

theorem lastWordThat_of_delimits {kind : List Char → Bool} {front word back : List Char}
    (h : Text.Delimits front back) (hne : word ≠ []) (hword : ∀ c ∈ word, Text.isBlank c = false)
    (hkind : kind word = true) (hbehind : ∀ other ∈ Text.words back, kind other = false) :
    lastWordThat kind (String.ofList (front ++ word ++ back)) = some (String.ofList word) := by
  have hnone : (Text.words back).filter kind = [] :=
    List.filter_eq_nil_iff.mpr fun other hother => by simp [hbehind other hother]
  have hwords : Text.words (front ++ word ++ back) =
      Text.words front ++ [word] ++ Text.words back := by
    rw [Text.words_append (.inr h.behind), Text.words_append (.inl h.before),
      Text.words_of_not_blank hne hword]
  rw [lastWordThat, String.toList_ofList, hwords, List.filter_append, List.filter_append, hnone,
    List.append_nil, List.filter_singleton]
  simp [hkind]

theorem exists_lastRun {cs : List Char} (h : ∃ c ∈ cs, isDigit c = true) :
    ∃ front token back, cs = front ++ token ++ back ∧ LastRun front token back := by
  let rest := cs.reverse.dropWhile (!isDigit ·)
  have hsplit : cs = (rest.dropWhile isDigit).reverse ++ (rest.takeWhile isDigit).reverse ++
      (cs.reverse.takeWhile (!isDigit ·)).reverse := by
    rw [← List.reverse_append, List.takeWhile_append_dropWhile, ← List.reverse_append,
      List.takeWhile_append_dropWhile, List.reverse_reverse]
  refine ⟨_, _, _, hsplit, ?_, fun c hc => ?_, fun c hc => ?_, fun c hc => ?_⟩
  · -- what is left of the reversed text begins with a digit
    have hne : rest ≠ [] := by
      obtain ⟨c, hc, hdigit⟩ := h
      intro hnil
      have hnot := List.dropWhile_eq_nil_iff.mp hnil c (List.mem_reverse.mpr hc)
      simp [hdigit] at hnot
    obtain ⟨c, tail, htail⟩ := List.exists_cons_of_ne_nil hne
    have hhead : c ∈ rest.head? := by rw [htail]; rfl
    have hdigit : isDigit c = true := by simpa using head?_dropWhile (l := cs.reverse) c hhead
    rw [htail, List.takeWhile_cons, hdigit]
    simp
  · exact List.mem_takeWhile_imp (List.mem_reverse.mp hc)
  · rw [List.getLast?_reverse] at hc
    exact head?_dropWhile c hc
  · simpa using List.mem_takeWhile_imp (List.mem_reverse.mp hc)

theorem isBlank_of_isDigit {c : Char} (h : isDigit c = true) : Text.isBlank c = false := by
  have hascii : c.toNat < 128 := by
    have hle {a : Char} (hc : c ≤ a) (ha : a.toNat < 128) : c.toNat < 128 :=
      Nat.lt_of_le_of_lt (UInt32.le_iff_toNat_le.mp hc) ha
    simp only [isDigit, Char.isDigit, Bool.or_eq_true, Bool.and_eq_true, decide_eq_true_eq] at h
    rcases h with (h | h) | h
    · exact hle (a := '9') h.2 (by decide)
    · exact hle h.2 (by decide)
    · exact hle h.2 (by decide)
  exact forall_ascii (P := fun c => isDigit c = true → Text.isBlank c = false)
    (by decide +kernel) hascii h

section

variable {front token back : List Char}

theorem LastRun.exists_word (h : LastRun front token back) : ∃ front' left right back',
    front = front' ++ left ∧ back = right ++ back' ∧ Text.Delimits front' back' ∧
      LastRun left token right ∧ ∀ c ∈ left ++ token ++ right, Text.isBlank c = false := by
  obtain ⟨front', left, right, back', rfl, rfl, hdelimits, hleft, hright⟩ :=
    Text.exists_delimits front back
  refine ⟨front', left, right, back', rfl, rfl, hdelimits, ⟨h.ne_nil, h.digits, ?_, ?_⟩, ?_⟩
  · intro c hc
    refine h.before c ?_
    rw [List.getLast?_append, hc]
    rfl
  · exact fun c hc => h.behind c (List.mem_append_left _ hc)
  · simp only [List.forall_mem_append]
    exact ⟨⟨hleft, fun c hc => isBlank_of_isDigit (h.digits c hc)⟩, hright⟩

theorem LastRun.any_isDigit (h : LastRun front token back) :
    (front ++ token ++ back).any isDigit = true := by
  obtain ⟨c, hc⟩ := List.exists_mem_of_ne_nil _ h.ne_nil
  refine List.any_eq_true.mpr ⟨c, ?_, h.digits c hc⟩
  exact List.mem_append_left _ (List.mem_append_right _ hc)

/-- Nothing but the run is in a word of digits. -/
theorem LastRun.all_isDigit_iff (h : LastRun front token back) :
    (∀ c ∈ front ++ token ++ back, isDigit c = true) ↔ front = [] ∧ back = [] := by
  constructor
  · intro hall
    simp only [List.forall_mem_append] at hall
    obtain ⟨⟨hfront, -⟩, hback⟩ := hall
    constructor
    · rcases List.eq_nil_or_concat' front with rfl | ⟨front, c, rfl⟩
      · rfl
      · have hnot := h.before c (by simp)
        rw [hfront c (by simp)] at hnot
        cases hnot
    · cases back with
      | nil => rfl
      | cons c back =>
        have hnot := h.behind c List.mem_cons_self
        rw [hback c List.mem_cons_self] at hnot
        cases hnot
  · rintro ⟨rfl, rfl⟩
    simpa using h.digits

end

theorem exists_fragment {text : String} (h : ∃ c ∈ text.toList, isDigit c = true) :
    ∃ left token right, LastRun left token right ∧
      lastToken text = some (String.ofList token) ∧
      lastWordWithDigit text = some (String.ofList (left ++ token ++ right)) ∧
      ((∀ c ∈ left ++ token ++ right, isDigit c = true) →
        lastWordOfDigits text = some (String.ofList (left ++ token ++ right))) := by
  obtain ⟨front, token, back, htext, hrun⟩ := exists_lastRun h
  obtain ⟨front', left, right, back', rfl, rfl, hdelimits, hrun', hword⟩ := hrun.exists_word
  have hnone : ∀ other ∈ Text.words back', other ≠ [] ∧ ∀ c ∈ other, isDigit c = false := by
    intro other hother
    obtain ⟨hne, hmem⟩ := Text.mem_of_mem_words hother
    exact ⟨hne, fun c hc => hrun.behind c (List.mem_append_right _ (hmem c hc))⟩
  have hne : left ++ token ++ right ≠ [] := by simp [hrun.ne_nil]
  have hsplit : text = String.ofList (front' ++ (left ++ token ++ right) ++ back') := by
    rw [← String.ofList_toList (s := text), htext]
    simp only [List.append_assoc]
  refine ⟨left, token, right, hrun', ?_, ?_, fun hall => ?_⟩
  · rw [← String.ofList_toList (s := text), htext]
    exact hrun.lastToken
  · rw [hsplit]
    refine lastWordThat_of_delimits hdelimits hne hword hrun'.any_isDigit fun other hother => ?_
    exact List.any_eq_false.mpr fun c hc => by simp [(hnone other hother).2 c hc]
  · rw [hsplit]
    refine lastWordThat_of_delimits hdelimits hne hword (List.all_eq_true.mpr hall) ?_
    intro other hother
    obtain ⟨hne', hdigits⟩ := hnone other hother
    obtain ⟨c, hc⟩ := List.exists_mem_of_ne_nil _ hne'
    exact List.all_eq_false.mpr ⟨c, hc, by simp [hdigits c hc]⟩

theorem lastWordThat_of_not_isDigit {kind : List Char → Bool} {text : String}
    (h : ∀ c ∈ text.toList, isDigit c = false)
    (hkind : ∀ word ≠ [], (∀ c ∈ word, isDigit c = false) → kind word = false) :
    lastWordThat kind text = none := by
  have hnone : (Text.words text.toList).filter kind = [] := by
    refine List.filter_eq_nil_iff.mpr fun word hword => ?_
    obtain ⟨hne, hmem⟩ := Text.mem_of_mem_words hword
    simp [hkind word hne fun c hc => h c (hmem c hc)]
  rw [lastWordThat, hnone]
  rfl

theorem lastToken_of_not_isDigit {text : String} (h : ∀ c ∈ text.toList, isDigit c = false) :
    lastToken text = none := by
  have hnil : text.toList.reverse.dropWhile (!isDigit ·) = [] :=
    List.dropWhile_eq_nil_iff.mpr fun c hc => by simp [h c (List.mem_reverse.mp hc)]
  rw [lastToken, hnil]
  rfl

theorem Framed.lastToken_eq {text : String} (h : Framed text) :
    lastToken text = lastWordOfDigits text := by
  by_cases hdigit : ∃ c ∈ text.toList, isDigit c = true
  · obtain ⟨left, token, right, hrun, htoken, hword, hdigits⟩ := exists_fragment hdigit
    have hall := h _ hword
    rw [String.toList_ofList] at hall
    obtain ⟨rfl, rfl⟩ := hrun.all_isDigit_iff.mp hall
    rw [htoken, hdigits hall, List.nil_append, List.append_nil]
  · have hnone : ∀ c ∈ text.toList, isDigit c = false := by simpa using hdigit
    rw [lastToken_of_not_isDigit hnone, lastWordOfDigits, lastWordThat_of_not_isDigit hnone]
    intro word hne hword
    obtain ⟨c, hc⟩ := List.exists_mem_of_ne_nil _ hne
    exact List.all_eq_false.mpr ⟨c, hc, by simp [hword c hc]⟩

/-- All other texts end in a word that the last run of digits is a proper part of. -/
theorem exists_fragment_of_not_framed {text : String} (h : ¬ Framed text) : ∃ word fragment,
    lastWordWithDigit text = some word ∧ lastToken word = some fragment ∧
      lastToken text = some fragment ∧ fragment.toList <:+: word.toList ∧ fragment ≠ word := by
  simp only [Framed, not_forall] at h
  obtain ⟨word, hword, c, hc, hnot⟩ := h
  have hdigit : ∃ c ∈ text.toList, isDigit c = true := by
    by_contra hnone
    have hnone' : lastWordWithDigit text = none := by
      refine lastWordThat_of_not_isDigit (by simpa using hnone) fun word _ hword => ?_
      exact List.any_eq_false.mpr fun c hc => by simp [hword c hc]
    rw [hnone'] at hword
    cases hword
  obtain ⟨left, token, right, hrun, htoken, hword', -⟩ := exists_fragment hdigit
  obtain rfl : String.ofList (left ++ token ++ right) = word :=
    Option.some.inj (hword'.symm.trans hword)
  refine ⟨_, _, hword', hrun.lastToken, htoken, ?_, ?_⟩
  · simp only [String.toList_ofList]
    exact ⟨left, right, rfl⟩
  · intro heq
    rw [← heq, String.toList_ofList] at hc
    exact hnot (hrun.digits c hc)

theorem payload_of_digits {text : String} (h : ∀ c ∈ text.toList, isDigit c = true) :
    payload text = text := by
  have hmark : 'x' ∉ text.toList := fun hx => absurd (h 'x' hx) (by decide)
  have hblank : ∀ c ∈ text.toList, Text.isBlank c = false := fun c hc =>
    isBlank_of_isDigit (h c hc)
  rw [payload, Text.trim_of_forall_not_blank hblank, dropMark_of_not_mem hmark,
    String.ofList_toList]

end Hex

namespace Compiler

def bytesOfDigits (name path : String) : Option String → Except LinkError (List UInt8)
  | none => .error (.compilerInvocation name (.noHexOutput path))
  | some digits => (Hex.decode digits).mapError .invalidHex

theorem bytesOfText_eq_bytesOfDigits (name path text : String) :
    bytesOfText name path text = bytesOfDigits name path (Hex.lastToken text) := by
  rw [bytesOfText]
  cases Hex.lastToken text <;> rfl

end Compiler

namespace Sample

def plain : String := "Binary representation:\n5b00\n"

def warned : String := plain ++ "Warning: unreachable code\n"

end Sample

namespace Compiler

variable {compiler : Compiler} {path version : String} {files left : Files.Tree}

/-- A text that is framed is read as its last word of digits. Every other text is read as a fragment
of the last word that has a digit in it. -/
theorem compileToBytes_framing {text : String}
    (h : compiler.compile path version files = (.ok text, left)) :
    (Hex.Framed text → compiler.compileToBytes path version files =
      ((bytesOfDigits compiler.name path (Hex.lastWordOfDigits text)).mapError .error, left)) ∧
    (¬ Hex.Framed text → ∃ word fragment, Hex.lastWordWithDigit text = some word ∧
      Hex.lastToken word = some fragment ∧ fragment.toList <:+: word.toList ∧ fragment ≠ word ∧
        compiler.compileToBytes path version files =
          ((bytesOfDigits compiler.name path (some fragment)).mapError .error, left)) := by
  rw [compileToBytes_of_compile h, bytesOfText_eq_bytesOfDigits]
  constructor
  · intro hframed
    rw [hframed.lastToken_eq]
  · intro hframed
    obtain ⟨word, fragment, hword, hfragment, htext, hinfix, hne⟩ :=
      Hex.exists_fragment_of_not_framed hframed
    exact ⟨word, fragment, hword, hfragment, hinfix, hne, by rw [htext]⟩

open Sample in
theorem compileToBytes_framing_warned :
    (printing plain).compileToBytes modulePath "london" Sample.files =
      (.ok [0x5b, 0x00], Sample.files) ∧
    (printing warned).compileToBytes modulePath "london" Sample.files =
      (.ok [0xde], Sample.files) := by
  constructor
  · have hlast : Hex.lastWordWithDigit plain = some "5b00" := by decide +kernel
    have hword : Hex.lastWordOfDigits plain = some "5b00" := by decide +kernel
    have hbytes : bytesOfDigits "sample" modulePath (some "5b00") = .ok [0x5b, 0x00] := by
      decide +kernel
    have hframed : Hex.Framed plain := by
      intro word hmem
      rw [hlast] at hmem
      cases hmem
      exact List.all_eq_true.mp (by decide +kernel)
    have hcompile : (printing plain).compile modulePath "london" Sample.files =
      (.ok plain, Sample.files) := rfl
    rw [(compileToBytes_framing hcompile).1 hframed, hword]
    exact congrArg (fun r => (Except.mapError Failure.error r, Sample.files)) hbytes
  · have hlast : Hex.lastWordWithDigit warned = some "code" := by decide +kernel
    have htoken : Hex.lastToken "code" = some "de" := by decide +kernel
    have hbytes : bytesOfDigits "sample" modulePath (some "de") = .ok [0xde] := by decide +kernel
    have hframed : ¬ Hex.Framed warned := by
      intro hframed
      exact absurd (List.all_eq_true.mpr (hframed "code" hlast)) (by decide +kernel)
    have hcompile : (printing warned).compile modulePath "london" Sample.files =
      (.ok warned, Sample.files) := rfl
    obtain ⟨word, fragment, hword, hfragment, -, -, hresult⟩ :=
      (compileToBytes_framing hcompile).2 hframed
    rw [hlast, Option.some.injEq] at hword
    rw [← hword, htoken, Option.some.injEq] at hfragment
    rw [hresult, ← hfragment]
    exact congrArg (fun r => (Except.mapError Failure.error r, Sample.files)) hbytes

open Sample in
/-- A run of digits in a word behind the bytes is read in their place. -/
theorem not_forall_compileToBytes_lastWordOfDigits : ¬ ∀ (compiler : Compiler)
    (path version text : String) (files left : Files.Tree),
    compiler.compile path version files = (.ok text, left) →
      compiler.compileToBytes path version files =
        ((bytesOfDigits compiler.name path (Hex.lastWordOfDigits text)).mapError .error, left) := by
  intro hall
  have h := hall (printing warned) modulePath "london" warned Sample.files Sample.files rfl
  have htoken : Hex.lastToken warned = some "de" := by decide +kernel
  have hword : Hex.lastWordOfDigits warned = some "5b00" := by decide +kernel
  rw [compileToBytes_of_compile rfl, bytesOfText_eq_bytesOfDigits, htoken, hword] at h
  have hne : (bytesOfDigits "sample" modulePath (some "de")).mapError Failure.error ≠
      (bytesOfDigits "sample" modulePath (some "5b00")).mapError Failure.error := by decide +kernel
  exact hne (congrArg Prod.fst h)

/-- Digits of either case between a banner and a trailer are read as the bytes that they spell. -/
theorem compileToBytes_printed {banner digits trailer : String} {bytes : List UInt8}
    (h : compiler.compile path version files = (.ok (banner ++ digits ++ trailer), left))
    (hbanner : ∀ c ∈ banner.toList.getLast?, Hex.isDigit c = false) (hne : bytes ≠ [])
    (hdigits : Text.SameButCase digits.toList (Hex.encode bytes).toList)
    (htrailer : ∀ c ∈ trailer.toList, Hex.isDigit c = false) :
    compiler.compileToBytes path version files = (.ok bytes, left) := by
  have hspell := Hex.sameButCase_iff.mp hdigits
  have hall : ∀ c ∈ digits.toList, Hex.isDigit c = true := fun c hc =>
    (Hex.digits_of_spelling hspell c hc).2
  have hrun : Hex.LastRun banner.toList digits.toList trailer.toList := by
    refine ⟨fun hnil => ?_, hall, hbanner, htrailer⟩
    rw [hnil] at hspell
    exact Hex.digits_ne_nil hne hspell.symm
  have htoken : Hex.lastToken (banner ++ digits ++ trailer) = some digits := by
    have htoken := hrun.lastToken
    rwa [← String.toList_append, ← String.toList_append, String.ofList_toList,
      String.ofList_toList] at htoken
  have hdecode : Hex.decode digits = .ok bytes := by
    rw [Hex.decode_eq_ok_iff, Hex.payload_of_digits hall]
    exact hdigits
  rw [compileToBytes_of_compile h, bytesOfText, htoken]
  dsimp only
  rw [hdecode]
  rfl

open Sample in
/-- A banner that ends in `0x` and has runs of digits in it, bytes in both cases, and a trailer. -/
theorem compileToBytes_printed_marked :
    (printing ("dead beef\n0x" ++ "5bF3fE" ++ "\nok\n")).compileToBytes modulePath "london"
      Sample.files = (.ok [0x5b, 0xf3, 0xfe], Sample.files) := by
  have hbanner : "dead beef\n0x".toList.getLast? = some 'x' := by decide +kernel
  have htrailer : "\nok\n".toList.any Hex.isDigit = false := by decide +kernel
  refine compileToBytes_printed rfl ?_ (by decide) ?_ (by simpa using htrailer)
  · rw [hbanner]
    rintro c ⟨⟩
    decide
  · unfold Text.SameButCase
    decide +kernel

end Compiler

end ImageLinker
