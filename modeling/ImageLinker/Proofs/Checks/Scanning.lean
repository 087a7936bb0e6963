import ImageLinker.Proofs.Checks.Basic
import ImageLinker.Proofs.Header

/-!
The checked scanner. It works with positions in the bytes of a source and cuts the source only
between characters. No check fails, and it comes to what the unchecked one comes to, which works
with the rests of lists.
-/
namespace ImageLinker.Checked

open Yul

def isContinuation (b : UInt8) : Bool := 0x80 ≤ b && b < 0xc0

def isBoundary (bytes : List UInt8) (position : Nat) : Bool :=
  position == 0 || position == bytes.length ||
    (bytes[position]?.any fun b => !isContinuation b)

/-- What is between two positions of a text, if they are between characters. -/
def cut (bytes : List UInt8) (start stop : Nat) : Checked (List UInt8) := do
  if !isBoundary bytes start then breach (.splitCharacter start)
  if !isBoundary bytes stop then breach (.splitCharacter stop)
  range bytes start stop

/-- The first position of two bytes in a row. -/
def pairAt? (first second : UInt8) : List UInt8 → Option Nat
  | a :: b :: rest =>
    if a = first ∧ b = second then some 0 else (pairAt? first second (b :: rest)).map (· + 1)
  | _ => none

def skipComment (bytes : List UInt8) (position : Nat) : Checked (Option Nat) := do
  let rest ← range bytes position bytes.length
  if [0x2f, 0x2f].isPrefixOf rest then
    return some (match rest.findIdx? (· == 0x0a) with
      | some feed => position + feed + 1
      | none => bytes.length)
  if [0x2f, 0x2a].isPrefixOf rest then
    return some (match pairAt? 0x2a 0x2f (← range rest 2 rest.length) with
      | some close => position + 2 + close + 2
      | none => bytes.length)
  return none

/-- The position behind a string whose opening quote is behind. -/
def stringEnd (bytes : List UInt8) (position : Nat) : Checked Nat := do
  if position < bytes.length then
    let b ← get bytes position
    if b = 0x5c then stringEnd bytes (position + 2)
    else if b = 0x22 then return position + 1
    else stringEnd bytes (position + 1)
  else return bytes.length
termination_by bytes.length - position

def nameEnd (bytes : List UInt8) (position : Nat) : Checked Nat := do
  if position < bytes.length then
    if continuesName (← get bytes position) then nameEnd bytes (position + 1)
    else return position
  else return position
termination_by bytes.length - position

/-- The position behind white space and comments. -/
def skipTrivia (bytes : List UInt8) : (fuel position : Nat) → Checked Nat
  | 0, _ => breach .endless
  | fuel + 1, position => do
    match ← skipComment bytes position with
    | some stop => skipTrivia bytes fuel stop
    | none =>
      if position < bytes.length then
        if isSpace (← get bytes position) then skipTrivia bytes fuel (position + 1)
        else return position
      else return position

def steps (bytes : List UInt8) : Nat := bytes.length + 1

def expectToken (bytes : List UInt8) (position : Nat) (token : List UInt8) :
    Checked (Option Nat) := do
  let rest ← cut bytes position bytes.length
  return if token.isPrefixOf rest then some (position + token.length) else none

/-- The position behind the next token behind white space and comments. -/
def nextToken (bytes : List UInt8) (position : Nat) (token : List UInt8) :
    Checked (Option Nat) := do
  expectToken bytes (← skipTrivia bytes (steps bytes) position) token

/-- The position behind a runtime header whose `object` is behind. -/
def headerEnd (bytes : List UInt8) (position : Nat) : Checked (Option Nat) := do
  match ← nextToken bytes position (ascii "\"runtime\"") with
  | none => return none
  | some position =>
    match ← nextToken bytes position (ascii "\x7b") with
    | none => return none
    | some position =>
      let start ← skipTrivia bytes (steps bytes) position
      let stop ← nameEnd bytes start
      if (← cut bytes start stop) = ascii "code" then nextToken bytes stop (ascii "\x7b")
      else return none

/-- Where the first runtime header from a position on begins and ends. -/
def findBlock (bytes : List UInt8) : (fuel position : Nat) → Checked (Option (Nat × Nat))
  | 0, _ => breach .endless
  | fuel + 1, position => do
    if position < bytes.length then
      match ← skipComment bytes position with
      | some stop => findBlock bytes fuel stop
      | none =>
        let b ← get bytes position
        if b = 0x22 then findBlock bytes fuel (← stringEnd bytes (position + 1))
        else if beginsName b then
          let stop ← nameEnd bytes position
          if (← cut bytes position stop) = ascii "object" then
            match ← headerEnd bytes stop with
            | some body => return some (position, body)
            | none => findBlock bytes fuel stop
          else findBlock bytes fuel stop
        else findBlock bytes fuel (position + 1)
    else return none

def At (bytes : List UInt8) (position : Nat) (rest : List UInt8) : Prop :=
  ∃ front, bytes = front ++ rest ∧ front.length = position

def Opens (rest : List UInt8) : Prop := ∀ b ∈ rest.head?, isContinuation b = false

/-- At a position between characters begins the rest of a text. -/
structure Between (bytes : List UInt8) (position : Nat) (rest : List UInt8) : Prop where
  at_ : At bytes position rest
  opens : Opens rest

def Sound (bytes : List UInt8) : Prop :=
  ∀ ⦃position : Nat⦄ ⦃b : UInt8⦄ ⦃rest : List UInt8⦄, At bytes position (b :: rest) → b < 0x80 →
    Opens rest

variable {bytes l rest : List UInt8} {position : Nat} {b : UInt8}

namespace At

theorem start (bytes : List UInt8) : At bytes 0 bytes := ⟨[], rfl, rfl⟩

theorem position_eq (h : At bytes position l) : position = bytes.length - l.length := by
  obtain ⟨front, rfl, rfl⟩ := h
  rw [List.length_append, Nat.add_sub_cancel]

theorem le (h : At bytes position l) : position ≤ bytes.length := by
  obtain ⟨front, rfl, rfl⟩ := h
  rw [List.length_append]
  omega

theorem length_le (h : At bytes position l) : l.length ≤ bytes.length := by
  obtain ⟨front, rfl, rfl⟩ := h
  rw [List.length_append]
  omega

theorem drop_eq (h : At bytes position l) : bytes.drop position = l := by
  obtain ⟨front, rfl, rfl⟩ := h
  exact List.drop_left

theorem append {front : List UInt8} (h : At bytes position (front ++ l)) :
    At bytes (position + front.length) l := by
  obtain ⟨before, rfl, rfl⟩ := h
  exact ⟨before ++ front, (List.append_assoc _ _ _).symm, List.length_append⟩

theorem tail (h : At bytes position (b :: l)) : At bytes (position + 1) l :=
  append (show At bytes position ([b] ++ l) from h)

theorem lt (h : At bytes position (b :: l)) : position < bytes.length := h.tail.le

theorem eq_length (h : At bytes position []) : position = bytes.length := by
  rw [h.position_eq, List.length_nil, Nat.sub_zero]

theorem getElem?_eq (h : At bytes position l) : bytes[position]? = l.head? := by
  rw [← List.head?_drop, h.drop_eq]

theorem get (h : At bytes position (b :: l)) : Checked.get bytes position = .ok b :=
  get_eq h.getElem?_eq

theorem range (h : At bytes position l) : Checked.range bytes position bytes.length = .ok l := by
  rw [range_length h.le, h.drop_eq]

end At

theorem opens_of_lt (h : b < 0x80) : Opens (b :: l) := by
  rintro c hc
  cases hc
  rw [isContinuation, Bool.and_eq_false_iff]
  exact .inl (decide_eq_false (UInt8.not_le.mpr h))

namespace Between

theorem stop (bytes : List UInt8) : Between bytes bytes.length [] :=
  ⟨⟨bytes, (List.append_nil _).symm, rfl⟩, nofun⟩

theorem append {front : List UInt8} (hs : Sound bytes) (h : Between bytes position (front ++ l))
    (hfront : ∀ b ∈ front, b < 0x80) : Between bytes (position + front.length) l := by
  refine ⟨h.at_.append, ?_⟩
  rcases List.eq_nil_or_concat front with rfl | ⟨before, b, rfl⟩
  · exact h.opens
  · have hat := h.at_
    rw [List.concat_eq_append, List.append_assoc] at hat
    exact hs hat.append (hfront b (by simp))

theorem tail (hs : Sound bytes) (h : At bytes position (b :: l)) (hb : b < 0x80) :
    Between bytes (position + 1) l := ⟨h.tail, hs h hb⟩

theorem isBoundary (h : Between bytes position l) : Checked.isBoundary bytes position = true := by
  rw [Checked.isBoundary, h.at_.getElem?_eq]
  cases l with
  | nil => simp [h.at_.eq_length]
  | cons b l => simp [h.opens b rfl]

theorem cut_eq {front : List UInt8} (h : Between bytes position (front ++ l))
    (h' : Between bytes (position + front.length) l) :
    cut bytes position (position + front.length) = .ok front := by
  have hle := h'.at_.le
  have hrange : (bytes.take (position + front.length)).drop position = front := by
    rw [List.drop_take, h.at_.drop_eq, Nat.add_sub_cancel_left, List.take_left]
  rw [cut, h.isBoundary, h'.isBoundary]
  exact (range_eq (Nat.le_add_right _ _) hle).trans (congrArg Except.ok hrange)

theorem cut_length (h : Between bytes position l) : cut bytes position bytes.length = .ok l := by
  have hlen : position + l.length = bytes.length := by
    obtain ⟨front, rfl, rfl⟩ := h.at_
    exact List.length_append.symm
  have hstop := Between.stop bytes
  rw [← hlen] at hstop
  rw [← hlen]
  exact cut_eq (by rwa [List.append_nil]) hstop

end Between

/-- Work comes to a position between characters, at which a rest begins. -/
def Ends (bytes : List UInt8) (x : Checked Nat) (rest : List UInt8) : Prop :=
  ∃ stop, x = .ok stop ∧ Between bytes stop rest

/-- Work that may find nothing comes to such a position when it finds something. -/
def Finds (bytes : List UInt8) (x : Checked (Option Nat)) : Option (List UInt8) → Prop
  | none => x = .ok none
  | some rest => ∃ stop, x = .ok (some stop) ∧ Between bytes stop rest

theorem between_afterLine (hs : Sound bytes) (h : At bytes position l) :
    Between bytes (match l.findIdx? (· == 0x0a) with
      | some feed => position + feed + 1
      | none => bytes.length) (afterLine l) := by
  induction l generalizing position with
  | nil => exact Between.stop bytes
  | cons b l ih =>
    rw [List.findIdx?_cons]
    by_cases hb : b = 0x0a
    · subst hb
      exact Between.tail hs h (by decide)
    · rw [if_neg (by simpa using hb), afterLine.eq_3 _ _ hb]
      have hrest := ih h.tail
      cases hfeed : l.findIdx? (· == 0x0a) with
      | none =>
        rw [hfeed] at hrest
        exact hrest
      | some feed =>
        rw [hfeed] at hrest
        dsimp only at hrest
        rw [Nat.add_right_comm position] at hrest
        exact hrest

theorem between_afterBlock (hs : Sound bytes) (h : At bytes position l) :
    Between bytes (match pairAt? 0x2a 0x2f l with
      | some close => position + close + 2
      | none => bytes.length) (afterBlock l) := by
  fun_induction afterBlock l generalizing position with
  | case1 => exact Between.stop bytes
  | case2 rest => exact Between.tail hs h.tail (by decide)
  | case3 b rest hclose ih =>
    cases rest with
    | nil => exact Between.stop bytes
    | cons c rest =>
      have hpair : ¬ (b = 0x2a ∧ c = 0x2f) := fun hbc => hclose rest hbc.1 (by rw [hbc.2])
      have hrest := ih h.tail
      rw [pairAt?, if_neg hpair]
      cases hpos : pairAt? 0x2a 0x2f (c :: rest) with
      | none =>
        rw [hpos] at hrest
        exact hrest
      | some close =>
        rw [hpos] at hrest
        dsimp only at hrest
        rw [Nat.add_right_comm position] at hrest
        exact hrest

theorem skipComment_finds (hs : Sound bytes) (h : At bytes position l) :
    Finds bytes (skipComment bytes position) (afterComment? l) := by
  rw [skipComment, h.range, ok_bind]
  fun_cases afterComment? l with
  | case1 rest =>
    have hline := between_afterLine hs h.tail.tail
    refine ⟨_, if_pos rfl, ?_⟩
    rw [List.findIdx?_cons, if_neg (by decide), List.findIdx?_cons, if_neg (by decide)]
    cases hfeed : rest.findIdx? (· == 0x0a) with
    | none =>
      rw [hfeed] at hline
      exact hline
    | some feed =>
      rw [hfeed] at hline
      dsimp only at hline
      rw [Nat.add_right_comm _ 1 feed, Nat.add_right_comm position 1 feed] at hline
      exact hline
  | case2 rest =>
    have hblock := between_afterBlock hs h.tail.tail
    have hrest : Checked.range (0x2f :: 0x2a :: rest) 2 (rest.length + 2) = .ok rest :=
      range_length (Nat.le_add_left 2 rest.length)
    rw [if_neg (by simp)]
    refine ⟨_, (if_pos rfl).trans ?_, hblock⟩
    change (Checked.range (0x2f :: 0x2a :: rest) 2 (rest.length + 2) >>= _) = _
    rw [hrest, ok_bind]
    rfl
  | case3 _ hline hblock =>
    have hnot (first : UInt8) (hfirst : ∀ rest, l ≠ 0x2f :: first :: rest) :
        ¬ [0x2f, first].isPrefixOf l = true := by
      rw [List.isPrefixOf_iff_prefix]
      rintro ⟨rest, rfl⟩
      exact hfirst rest rfl
    rw [if_neg (hnot 0x2f hline), if_neg (hnot 0x2a hblock)]
    rfl

theorem stringEnd_of_le (h : bytes.length ≤ position) :
    stringEnd bytes position = .ok bytes.length := by
  rw [stringEnd, if_neg (Nat.not_lt.mpr h)]
  rfl

theorem stringEnd_ends (hs : Sound bytes) (h : At bytes position l) :
    Ends bytes (stringEnd bytes position) (afterString l) := by
  fun_induction afterString l generalizing position with
  | case1 => exact ⟨_, stringEnd_of_le h.eq_length.ge, Between.stop bytes⟩
  | case2 hidden rest ih =>
    rw [stringEnd, if_pos h.lt, h.get, ok_bind, if_pos rfl]
    exact ih h.tail.tail
  | case3 rest =>
    rw [stringEnd, if_pos h.lt, h.get, ok_bind, if_neg (by decide), if_pos rfl]
    exact ⟨_, rfl, Between.tail hs h (by decide)⟩
  | case4 b rest hescape hquote ih =>
    rw [stringEnd, if_pos h.lt, h.get, ok_bind]
    by_cases hb : b = 0x5c
    · -- there is nothing for the backslash to hide
      cases rest with
      | nil =>
        rw [if_pos hb, stringEnd_of_le (by have := h.tail.eq_length; omega)]
        exact ⟨_, rfl, Between.stop bytes⟩
      | cons hidden rest => exact absurd rfl (hescape hidden rest hb)
    · rw [if_neg hb, if_neg hquote]
      exact ih h.tail

theorem lt_of_continuesName (h : continuesName b = true) : b < 0x80 := by
  simp only [continuesName, beginsName, isLetter, isDigit, Bool.or_eq_true, Bool.and_eq_true,
    decide_eq_true_eq, beq_iff_eq, UInt8.le_iff_toNat_le, ← UInt8.toNat_inj,
    UInt8.reduceToNat] at h
  exact UInt8.lt_iff_toNat_lt.mpr (show b.toNat < 128 by omega)

theorem lt_of_isSpace (h : isSpace b = true) : b < 0x80 := by
  simp only [isSpace, Bool.or_eq_true, beq_iff_eq] at h
  obtain (((rfl | rfl) | rfl) | rfl) | rfl := h <;> decide

theorem nameEnd_ends (hs : Sound bytes) (h : Between bytes position l) :
    nameEnd bytes position = .ok (position + (l.takeWhile continuesName).length) ∧
      Between bytes (position + (l.takeWhile continuesName).length)
        (l.dropWhile continuesName) := by
  constructor
  · have hat := h.at_
    clear h
    induction l generalizing position with
    | nil =>
      rw [nameEnd, if_neg (by rw [hat.eq_length]; exact lt_irrefl _)]
      rfl
    | cons b l ih =>
      rw [nameEnd, if_pos hat.lt, hat.get, ok_bind, List.takeWhile_cons]
      split
      · rw [ih hat.tail, List.length_cons, Nat.add_assoc, Nat.add_comm 1]
      · rfl
  · rw [← List.takeWhile_append_dropWhile (p := continuesName) (l := l)] at h
    exact h.append hs fun b hb => lt_of_continuesName (List.all_eq_true.mp List.all_takeWhile b hb)

theorem cut_name (hs : Sound bytes) (h : Between bytes position l) :
    cut bytes position (position + (l.takeWhile continuesName).length) =
      .ok (l.takeWhile continuesName) := by
  have hend := (nameEnd_ends hs h).2
  rw [← List.takeWhile_append_dropWhile (p := continuesName) (l := l)] at h
  exact h.cut_eq hend

theorem skipTrivia_ends (hs : Sound bytes) (h : Between bytes position l) {fuel : Nat}
    (hfuel : l.length < fuel) :
    Ends bytes (skipTrivia bytes fuel position) (Yul.skipTrivia l) := by
  induction fuel generalizing l position with
  | zero => exact absurd hfuel (Nat.not_lt_zero _)
  | succ fuel ih =>
    have hcomment := skipComment_finds hs h.at_
    rw [skipTrivia]
    cases hrest : afterComment? l with
    | some rest =>
      rw [hrest] at hcomment
      obtain ⟨stop, hstop, hbetween⟩ := hcomment
      have hlt := length_afterComment?_lt hrest
      rw [hstop, ok_bind, skipTrivia_of_comment hrest]
      exact ih hbetween (by omega)
    | none =>
      rw [hrest] at hcomment
      rw [show skipComment bytes position = .ok none from hcomment, ok_bind]
      dsimp only
      cases l with
      | nil =>
        rw [if_neg (by rw [h.at_.eq_length]; exact lt_irrefl _), skipTrivia_nil]
        exact ⟨_, rfl, h⟩
      | cons b l =>
        rw [if_pos h.at_.lt, h.at_.get, ok_bind, skipTrivia_cons hrest]
        by_cases hspace : isSpace b = true
        · rw [if_pos hspace, if_pos hspace]
          exact ih (.tail hs h.at_ (lt_of_isSpace hspace)) (Nat.lt_of_succ_lt_succ hfuel)
        · rw [if_neg hspace, if_neg hspace]
          exact ⟨_, rfl, h⟩

/-- There are enough steps to the end of a text. -/
theorem At.lt_steps (h : At bytes position l) : l.length < steps bytes :=
  Nat.lt_succ_of_le h.length_le

theorem expectToken_finds (hs : Sound bytes) (h : Between bytes position l) {token : List UInt8}
    (htoken : ∀ b ∈ token, b < 0x80) :
    Finds bytes (expectToken bytes position token) (expect? token l) := by
  rw [expectToken, h.cut_length, ok_bind, expect?]
  split
  · rename_i hprefix
    obtain ⟨rest, rfl⟩ := List.isPrefixOf_iff_prefix.mp hprefix
    rw [List.drop_left]
    exact ⟨_, rfl, h.append hs htoken⟩
  · rfl

theorem nextToken_finds (hs : Sound bytes) (h : Between bytes position l) {token : List UInt8}
    (htoken : ∀ b ∈ token, b < 0x80) :
    Finds bytes (nextToken bytes position token) (expect? token (Yul.skipTrivia l)) := by
  obtain ⟨stop, hstop, hbetween⟩ := skipTrivia_ends hs h h.at_.lt_steps
  rw [nextToken, hstop, ok_bind]
  exact expectToken_finds hs hbetween htoken

theorem Finds.bind {x : Checked (Option Nat)} {found? : Option (List UInt8)}
    {f : Nat → Checked (Option Nat)} {g : List UInt8 → Option (List UInt8)}
    (h : Finds bytes x found?)
    (hf : ∀ stop rest, Between bytes stop rest → Finds bytes (f stop) (g rest)) :
    Finds bytes (x >>= fun | none => pure none | some stop => f stop) (found?.bind g) := by
  cases found? with
  | none =>
    rw [show x = .ok none from h, ok_bind]
    rfl
  | some rest =>
    obtain ⟨stop, rfl, hbetween⟩ := h
    rw [ok_bind, Option.bind_some]
    exact hf stop rest hbetween

theorem lt_of_mem_ascii_runtime : ∀ b ∈ ascii "\"runtime\"", b < 0x80 := by
  rw [ascii_runtime]
  simp [UInt8.lt_iff_toNat_lt]

theorem lt_of_mem_ascii_brace : ∀ b ∈ ascii "\x7b", b < 0x80 := by
  rw [ascii_brace]
  simp [UInt8.lt_iff_toNat_lt]

theorem headerEnd_finds (hs : Sound bytes) (h : Between bytes position l) :
    Finds bytes (headerEnd bytes position) (afterHeader? l) := by
  refine (nextToken_finds hs h lt_of_mem_ascii_runtime).bind fun position l h => ?_
  refine (nextToken_finds hs h lt_of_mem_ascii_brace).bind fun position l h => ?_
  obtain ⟨start, hstart, hbetween⟩ := skipTrivia_ends hs h h.at_.lt_steps
  obtain ⟨hname, hend⟩ := nameEnd_ends hs hbetween
  rw [hstart, ok_bind, hname, ok_bind, cut_name hs hbetween, ok_bind]
  dsimp only
  split
  · exact nextToken_finds hs hend lt_of_mem_ascii_brace
  · rfl

/-- The search by positions finds the first header. -/
theorem findBlock_eq (hs : Sound bytes) (h : At bytes position l) {fuel : Nat}
    (hfuel : l.length < fuel) :
    match findHeader? l with
    | none => findBlock bytes fuel position = .ok none
    | some (start, body) => ∃ first last, findBlock bytes fuel position = .ok (some (first, last)) ∧
        At bytes first start ∧ Between bytes last body := by
  induction fuel generalizing l position with
  | zero => exact absurd hfuel (Nat.not_lt_zero _)
  | succ fuel ih =>
    have hcomment := skipComment_finds hs h
    rw [findBlock]
    cases hrest : afterComment? l with
    | some rest =>
      rw [hrest] at hcomment
      obtain ⟨stop, hstop, hbetween⟩ := hcomment
      have hlt := length_afterComment?_lt hrest
      have hpos : position < bytes.length := by
        have := h.position_eq
        have := h.length_le
        omega
      rw [if_pos hpos, hstop, ok_bind, findHeader?_of_comment hrest]
      exact ih hbetween.at_ (by omega)
    | none =>
      rw [hrest] at hcomment
      cases l with
      | nil =>
        rw [if_neg (by rw [h.eq_length]; exact lt_irrefl _), findHeader?_nil]
        rfl
      | cons b l =>
        have hlen : l.length < fuel := Nat.lt_of_succ_lt_succ hfuel
        rw [if_pos h.lt, show skipComment bytes position = .ok none from hcomment, ok_bind]
        dsimp only
        rw [h.get, ok_bind, findHeader?_cons hrest]
        by_cases hquote : b = 0x22
        · obtain ⟨stop, hstop, hbetween⟩ := stringEnd_ends hs h.tail
          have hle := length_afterString_le l
          rw [if_pos hquote, if_pos hquote, hstop, ok_bind]
          exact ih hbetween.at_ (by omega)
        rw [if_neg hquote, if_neg hquote]
        by_cases hbegins : beginsName b = true
        · have hcontinues : continuesName b = true := by
            rw [continuesName, hbegins]
            rfl
          have hbetween : Between bytes position (b :: l) :=
            ⟨h, opens_of_lt (lt_of_continuesName hcontinues)⟩
          obtain ⟨hname, hend⟩ := nameEnd_ends hs hbetween
          have hcut := cut_name hs hbetween
          rw [List.takeWhile_cons_of_pos hcontinues] at hname hend hcut
          rw [List.dropWhile_cons_of_pos hcontinues] at hend
          have hbehind : (l.dropWhile continuesName).length < fuel :=
            Nat.lt_of_le_of_lt (List.dropWhile_sublist _).length_le hlen
          rw [if_pos hbegins, if_pos hbegins, hname, ok_bind, hcut, ok_bind]
          by_cases hobject : b :: l.takeWhile continuesName = ascii "object"
          · rw [if_pos hobject, if_pos hobject]
            have hheader := headerEnd_finds hs hend
            cases hbody : afterHeader? (l.dropWhile continuesName) with
            | none =>
              rw [hbody] at hheader
              rw [show headerEnd bytes _ = .ok none from hheader, ok_bind]
              exact ih hend.at_ hbehind
            | some body =>
              rw [hbody] at hheader
              obtain ⟨last, hlast, hbody⟩ := hheader
              rw [hlast, ok_bind]
              exact ⟨position, last, rfl, h, hbody⟩
          · rw [if_neg hobject, if_neg hobject]
            exact ih hend.at_ hbehind
        · rw [if_neg hbegins, if_neg hbegins]
          exact ih h.tail hlen

end ImageLinker.Checked
