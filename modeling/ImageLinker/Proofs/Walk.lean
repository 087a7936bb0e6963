import ImageLinker.Evm.Walk

/-! Which offsets the walk of a code gets to, and how walks of concatenated codes compose. -/
namespace ImageLinker.Evm

/-- The walk gets to an offset: an instruction starts there, or the last one ends there when its
data counts in full. -/
inductive Reaches (code : List UInt8) : Nat → Prop where
  | start : Reaches code 0
  | next {p : Nat} {opcode : UInt8} (h : Reaches code p) (hop : code[p]? = some opcode) :
      Reaches code (p + 1 + Opcode.immediateLength opcode)

/-- Where the walk of a code ends when the data of its last instruction counts in full. -/
def walkEnd (code : List UInt8) : Nat :=
  match (instructions code).getLast? with
  | none => 0
  | some last => last.offset + 1 + Opcode.immediateLength last.opcode

def instructionsFrom (offset : Nat) : List UInt8 → List Instruction
  | [] => []
  | opcode :: rest =>
    let width := Opcode.immediateLength opcode
    let instruction : Instruction := ⟨offset, opcode, rest.take width⟩
    instruction :: instructionsFrom instruction.next (rest.drop width)
termination_by code => code.length
decreasing_by simp only [List.length_drop, List.length_cons]; omega

theorem toList_walkFrom (code : List UInt8) (done : Array Instruction) (offset : Nat) :
    (walkFrom done offset code).toList = done.toList ++ instructionsFrom offset code := by
  fun_induction walkFrom done offset code with
  | case1 done offset => simp [instructionsFrom]
  | case2 done offset opcode rest width instruction ih =>
    rw [ih, instructionsFrom]
    simp [width, instruction]

theorem instructions_eq (code : List UInt8) : instructions code = instructionsFrom 0 code := by
  simp [instructions, toList_walkFrom]

@[simp] theorem instructionsFrom_nil (offset : Nat) : instructionsFrom offset [] = [] := by
  rw [instructionsFrom]

/-- Past a truncated instruction nothing is left, so the walk goes on by full widths. -/
theorem instructionsFrom_drop {code : List UInt8} {p : Nat} {opcode : UInt8}
    (hop : code[p]? = some opcode) :
    instructionsFrom p (code.drop p) =
      ⟨p, opcode, (code.drop (p + 1)).take (Opcode.immediateLength opcode)⟩ ::
        instructionsFrom (p + 1 + Opcode.immediateLength opcode)
          (code.drop (p + 1 + Opcode.immediateLength opcode)) := by
  obtain ⟨hp, rfl⟩ := List.getElem?_eq_some_iff.mp hop
  rw [List.drop_eq_getElem_cons hp, instructionsFrom]
  simp only [Instruction.next, List.length_take, List.length_drop, List.drop_drop]
  by_cases hw : Opcode.immediateLength code[p] ≤ code.length - (p + 1)
  · rw [Nat.min_eq_left hw]
  · have hnil : code.drop (p + 1 + Opcode.immediateLength code[p]) = [] :=
      List.drop_eq_nil_of_le (by omega)
    rw [hnil, instructionsFrom_nil, instructionsFrom_nil]

/-- No offset that the walk gets to lies inside an instruction. -/
theorem Reaches.le_or_next_le {code : List UInt8} {p q : Nat} {opcode : UInt8}
    (hp : Reaches code p) (hop : code[p]? = some opcode) (hq : Reaches code q) :
    q ≤ p ∨ p + 1 + Opcode.immediateLength opcode ≤ q := by
  cases hq with
  | start => exact .inl (Nat.zero_le p)
  | @next q opcode' hq hop' =>
    -- Of two different starts the earlier one cannot skip the later one.
    rcases Nat.lt_trichotomy q p with hlt | rfl | hlt
    · have := (Reaches.le_or_next_le hq hop' hp).resolve_left (by omega)
      exact .inl this
    · rw [hop, Option.some.injEq] at hop'
      subst hop'
      exact .inr (Nat.le_refl _)
    · have := (Reaches.le_or_next_le hp hop hq).resolve_left (by omega)
      right
      omega
termination_by p + q

namespace Reaches

variable {code a b : List UInt8} {p q : Nat} {opcode : UInt8}

/-- An instruction that starts behind another one starts behind its data. -/
theorem next_le (hp : Reaches code p) (hop : code[p]? = some opcode) (hq : Reaches code q)
    (h : p < q) : p + 1 + Opcode.immediateLength opcode ≤ q :=
  (hp.le_or_next_le hop hq).resolve_left (by omega)

/-- Only one offset past the last byte is got to. -/
theorem end_unique (hp : Reaches code p) (hlp : code.length ≤ p) (hq : Reaches code q)
    (hlq : code.length ≤ q) : p = q := by
  have key : ∀ {p q}, Reaches code p → code.length ≤ p → Reaches code q → code.length ≤ q →
      p ≤ q := by
    intro p q hp _ hq hlq
    cases hp with
    | start => exact Nat.zero_le q
    | next hp hop =>
      have := (List.getElem?_eq_some_iff.mp hop).1
      exact hp.next_le hop hq (by omega)
  exact Nat.le_antisymm (key hp hlp hq hlq) (key hq hlq hp hlp)

theorem append (h : Reaches a p) : Reaches (a ++ b) p := by
  induction h with
  | start => exact .start
  | next _ hop ih =>
    have := (List.getElem?_eq_some_iff.mp hop).1
    exact ih.next (by rw [List.getElem?_append_left this, hop])

/-- Up to its end a code is walked as it is alone, whatever follows it. -/
theorem of_append (h : Reaches (a ++ b) p) (hp : p ≤ a.length) : Reaches a p := by
  induction h with
  | start => exact .start
  | next _ hop ih =>
    rw [List.getElem?_append_left (by omega)] at hop
    exact (ih (by omega)).next hop

theorem add (hp : Reaches code p) (hq : Reaches (code.drop p) q) : Reaches code (p + q) := by
  induction hq with
  | start => exact hp
  | next _ hop ih =>
    rw [List.getElem?_drop] at hop
    have := ih.next hop
    rwa [Nat.add_assoc, Nat.add_assoc, ← Nat.add_assoc _ 1] at this

/-- Zeros are instructions of one byte. -/
theorem add_zeros {n : Nat} (h : Reaches code p) (hz : ∀ k < n, code[p + k]? = some 0) :
    Reaches code (p + n) := by
  induction n with
  | zero => exact h
  | succ n ih =>
    have hn : Reaches code (p + n) := ih fun k hk => hz k (Nat.lt_succ_of_lt hk)
    exact hn.next (hz n (Nat.lt_succ_self n))

/-- A walk reads no more of a code than which data its bytes have. -/
theorem of_forall_immediateLength_eq
    (hc : ∀ k : Nat, a[k]?.map Opcode.immediateLength = b[k]?.map Opcode.immediateLength)
    (h : Reaches a p) : Reaches b p := by
  induction h with
  | start => exact .start
  | @next p opcode _ hop ih =>
    have hp := hc p
    rw [hop, Option.map_some] at hp
    obtain ⟨opcode', hop', hlen⟩ := Option.map_eq_some_iff.mp hp.symm
    rw [← hlen]
    exact ih.next hop'

/-- A walk can be taken up at any offset it gets to. -/
theorem drop_iff (hp : Reaches code p) : Reaches (code.drop p) q ↔ Reaches code (p + q) := by
  refine ⟨hp.add, fun h => ?_⟩
  generalize hr : p + q = r at h
  induction h generalizing q with
  | start =>
    obtain rfl : q = 0 := by omega
    exact .start
  | @next r opcode h hop ih =>
    by_cases hlt : r < p
    · -- The walk passes over `p` only by landing on it.
      have := h.next_le hop hp hlt
      obtain rfl : q = 0 := by omega
      exact .start
    · obtain ⟨k, rfl⟩ : ∃ k, r = p + k := ⟨r - p, by omega⟩
      rw [← List.getElem?_drop] at hop
      have := (ih rfl).next hop
      rwa [show q = k + 1 + Opcode.immediateLength opcode by omega]

end Reaches

theorem mem_instructionsFrom {code : List UInt8} {p : Nat} (hp : Reaches code p) (i : Instruction) :
    i ∈ instructionsFrom p (code.drop p) ↔ p ≤ i.offset ∧ Reaches code i.offset ∧
      code[i.offset]? = some i.opcode ∧
      i.immediate = (code.drop (i.offset + 1)).take (Opcode.immediateLength i.opcode) := by
  cases hop : code[p]? with
  | none =>
    have hlen : code.length ≤ p := List.getElem?_eq_none_iff.mp hop
    rw [List.drop_eq_nil_of_le hlen, instructionsFrom_nil]
    refine ⟨fun h => by simp at h, fun ⟨hle, _, hi, _⟩ => ?_⟩
    have := (List.getElem?_eq_some_iff.mp hi).1
    omega
  | some opcode =>
    have hlt := (List.getElem?_eq_some_iff.mp hop).1
    rw [instructionsFrom_drop hop, List.mem_cons, mem_instructionsFrom (hp.next hop)]
    constructor
    · rintro (rfl | ⟨hle, h⟩)
      · exact ⟨Nat.le_refl p, hp, hop, rfl⟩
      · exact ⟨by omega, h⟩
    · rintro ⟨hle, hr, hi, himm⟩
      rcases Nat.lt_or_eq_of_le hle with hlt' | heq
      · exact .inr ⟨hp.next_le hop hr hlt', hr, hi, himm⟩
      · left
        obtain ⟨offset, opcode', immediate⟩ := i
        simp only at heq hi himm
        subst heq himm
        rw [hop, Option.some.injEq] at hi
        rw [hi]
termination_by code.length - p

theorem pairwise_instructionsFrom {code : List UInt8} {p : Nat} (hp : Reaches code p) :
    (instructionsFrom p (code.drop p)).Pairwise fun i j => i.offset < j.offset := by
  cases hop : code[p]? with
  | none =>
    rw [List.drop_eq_nil_of_le (List.getElem?_eq_none_iff.mp hop), instructionsFrom_nil]
    exact .nil
  | some opcode =>
    have hlt := (List.getElem?_eq_some_iff.mp hop).1
    rw [instructionsFrom_drop hop]
    refine .cons (fun i hi => ?_) (pairwise_instructionsFrom (hp.next hop))
    have hle := ((mem_instructionsFrom (hp.next hop) i).mp hi).1
    dsimp only
    omega
termination_by code.length - p

/-- Instructions are listed from the first byte of a code to its last. -/
theorem pairwise_instructions (code : List UInt8) :
    (instructions code).Pairwise fun i j => i.offset < j.offset := by
  rw [instructions_eq]
  exact pairwise_instructionsFrom .start

/-- The instructions of a code are the offsets its walk gets to, each with its opcode and as much of
its data as the code holds. -/
theorem mem_instructions {code : List UInt8} (i : Instruction) :
    i ∈ instructions code ↔ Reaches code i.offset ∧ code[i.offset]? = some i.opcode ∧
      i.immediate = (code.drop (i.offset + 1)).take (Opcode.immediateLength i.opcode) := by
  rw [instructions_eq]
  simpa using mem_instructionsFrom .start i

/-- An instruction starts at every offset inside the code that the walk gets to. -/
theorem Reaches.exists_instruction {code : List UInt8} {p : Nat} {opcode : UInt8}
    (hp : Reaches code p) (hop : code[p]? = some opcode) :
    ∃ i ∈ instructions code, i.offset = p ∧ i.opcode = opcode :=
  ⟨⟨p, opcode, (code.drop (p + 1)).take (Opcode.immediateLength opcode)⟩,
    (mem_instructions _).mpr ⟨hp, hop, rfl⟩, rfl, rfl⟩

theorem mem_jumpDestinations {code : List UInt8} {p : Nat} :
    p ∈ jumpDestinations code ↔ Reaches code p ∧ code[p]? = some Opcode.jumpDest := by
  simp only [jumpDestinations, List.mem_map, List.mem_filter, beq_iff_eq]
  constructor
  · rintro ⟨i, ⟨hi, hop⟩, rfl⟩
    obtain ⟨hr, hc, _⟩ := (mem_instructions i).mp hi
    exact ⟨hr, by rw [hc, hop]⟩
  · rintro ⟨hr, hop⟩
    obtain ⟨i, hi, hoff, hopc⟩ := hr.exists_instruction hop
    exact ⟨i, ⟨hi, hopc⟩, hoff⟩

/-- In other code an instruction stands where it stood, with an opcode that has as much data. -/
structure Instruction.BecomesIn (code' : List UInt8) (i i' : Instruction) : Prop where
  offset_eq : i'.offset = i.offset
  getElem?_eq : code'[i.offset]? = some i'.opcode
  immediateLength_eq : Opcode.immediateLength i'.opcode = Opcode.immediateLength i.opcode
  immediate_eq :
    i'.immediate = (code'.drop (i.offset + 1)).take (Opcode.immediateLength i.opcode)

theorem Instruction.BecomesIn.eq {code' : List UInt8} {i i' : Instruction}
    (h : i.BecomesIn code' i') : i' = ⟨i.offset, i'.opcode,
      (code'.drop (i.offset + 1)).take (Opcode.immediateLength i.opcode)⟩ := by
  rw [← h.immediate_eq, ← h.offset_eq]

/-- If each instruction of a code becomes one of the same width in another code, the two are walked
in step. -/
theorem instructionsFrom_eq_map {code code' : List UInt8} {f : Instruction → Instruction}
    (hlength : code'.length = code.length)
    (hf : ∀ i ∈ instructions code, i.BecomesIn code' (f i)) {p : Nat} (hp : Reaches code p) :
    instructionsFrom p (code'.drop p) = (instructionsFrom p (code.drop p)).map f := by
  cases hcode : code[p]? with
  | none =>
    have hlen : code.length ≤ p := List.getElem?_eq_none_iff.mp hcode
    have hlen' : code'.length ≤ p := by rwa [hlength]
    rw [List.drop_eq_nil_of_le hlen, List.drop_eq_nil_of_le hlen', instructionsFrom_nil,
      List.map_nil]
  | some opcode =>
    have hlt := (List.getElem?_eq_some_iff.mp hcode).1
    have hnext := instructionsFrom_eq_map hlength hf (hp.next hcode)
    have hmem : ⟨p, opcode, (code.drop (p + 1)).take (Opcode.immediateLength opcode)⟩ ∈
        instructions code := (mem_instructions _).mpr ⟨hp, hcode, rfl⟩
    have hfirst := hf _ hmem
    rw [instructionsFrom_drop hcode, instructionsFrom_drop hfirst.getElem?_eq,
      hfirst.immediateLength_eq, hnext, List.map_cons, ← hfirst.eq]
termination_by code.length - p

theorem instructions_eq_map {code code' : List UInt8} {f : Instruction → Instruction}
    (hlength : code'.length = code.length)
    (hf : ∀ i ∈ instructions code, i.BecomesIn code' (f i)) :
    instructions code' = (instructions code).map f := by
  rw [instructions_eq, instructions_eq]
  exact instructionsFrom_eq_map hlength hf .start

/-- Jump destinations stay where they are if instructions do and none becomes a `JUMPDEST` or ceases
to be one. -/
theorem jumpDestinations_eq_of_map {code code' : List UInt8} {f : Instruction → Instruction}
    (hmap : instructions code' = (instructions code).map f)
    (hoffset : ∀ i ∈ instructions code, (f i).offset = i.offset)
    (hop : ∀ i ∈ instructions code,
      (f i).opcode = Opcode.jumpDest ↔ i.opcode = Opcode.jumpDest) :
    jumpDestinations code' = jumpDestinations code := by
  have hfound : (instructions code).filter ((·.opcode == Opcode.jumpDest) ∘ f) =
      (instructions code).filter (·.opcode == Opcode.jumpDest) := by
    refine List.filter_congr fun i hi => ?_
    rw [Function.comp_apply, Bool.eq_iff_iff, beq_iff_eq, beq_iff_eq]
    exact hop i hi
  unfold jumpDestinations
  rw [hmap, List.filter_map, List.map_map, hfound]
  exact List.map_congr_left fun i hi => hoffset i (List.mem_filter.mp hi).1

/-- No byte is in the data of two instructions. -/
theorem offset_eq_of_data {code : List UInt8} {i i' : Instruction} (hi : i ∈ instructions code)
    (hi' : i' ∈ instructions code) {k : Nat}
    (hk : i.offset < k ∧ k ≤ i.offset + Opcode.immediateLength i.opcode)
    (hk' : i'.offset < k ∧ k ≤ i'.offset + Opcode.immediateLength i'.opcode) :
    i.offset = i'.offset := by
  obtain ⟨hr, hop, _⟩ := (mem_instructions i).mp hi
  obtain ⟨hr', hop', _⟩ := (mem_instructions i').mp hi'
  have hbefore := hr.le_or_next_le hop hr'
  have hbehind := hr'.le_or_next_le hop' hr
  omega

/-- The bytes at an offset are a pattern just when what is left of the code starts with it. -/
theorem extract_beq_eq_isPrefixOf (code pattern : List UInt8) (offset : Nat) :
    ((code.toArray.extract offset (offset + pattern.length)).toList == pattern) =
      pattern.isPrefixOf (code.drop offset) := by
  rw [Bool.eq_iff_iff, List.isPrefixOf_iff_prefix, List.prefix_iff_eq_take, beq_iff_eq, eq_comm]
  simp

theorem mem_findAligned {code pattern : List UInt8} (hne : pattern ≠ []) {o : Nat} :
    o ∈ findAligned code pattern ↔
      (∃ i ∈ instructions code, i.offset = o) ∧ pattern <+: code.drop o := by
  rw [findAligned, if_neg (by simpa using hne)]
  simp only [extract_beq_eq_isPrefixOf, List.mem_filter, List.mem_map, List.isPrefixOf_iff_prefix]

theorem pairwise_findAligned (code pattern : List UInt8) :
    (findAligned code pattern).Pairwise (· < ·) := by
  unfold findAligned
  split
  · exact .nil
  · exact (List.pairwise_map.mpr (pairwise_instructions code)).filter _

/-- The first offset at which a pattern is found is the least one. -/
theorem head?_findAligned {code pattern : List UInt8} {o : Nat} :
    (findAligned code pattern).head? = some o ↔
      o ∈ findAligned code pattern ∧ ∀ o' ∈ findAligned code pattern, o ≤ o' := by
  have hsorted := pairwise_findAligned code pattern
  cases hfound : findAligned code pattern with
  | nil => simp
  | cons first rest =>
    rw [hfound, List.pairwise_cons] at hsorted
    rw [List.head?_cons, Option.some.injEq]
    constructor
    · rintro rfl
      exact ⟨List.mem_cons_self, List.forall_mem_cons.mpr
        ⟨Nat.le_refl _, fun o' ho' => Nat.le_of_lt (hsorted.1 o' ho')⟩⟩
    · rintro ⟨hmem, hleast⟩
      have hle := hleast first List.mem_cons_self
      rcases List.mem_cons.mp hmem with rfl | hrest
      · rfl
      · have := hsorted.1 o hrest
        omega

/-- An opcode and all of its data are found where the walk meets that instruction. -/
theorem findAligned_cons {opcode : UInt8} {data : List UInt8}
    (hdata : data.length = Opcode.immediateLength opcode) (code : List UInt8) :
    findAligned code (opcode :: data) =
      ((instructions code).filter fun i => i.opcode = opcode ∧ i.immediate = data).map
        Instruction.offset := by
  unfold findAligned
  rw [if_neg (by simp), List.filter_map]
  refine congrArg _ (List.filter_congr fun i hi => ?_)
  obtain ⟨_, hop, himm⟩ := (mem_instructions i).mp hi
  obtain ⟨hlt, hget⟩ := List.getElem?_eq_some_iff.mp hop
  simp only [Function.comp_apply, Array.toList_extract, List.extract_eq_take_drop,
    Nat.add_sub_cancel_left]
  rw [List.drop_eq_getElem_cons hlt, List.length_cons, List.take_succ_cons, hget, hdata,
    Bool.eq_iff_iff, beq_iff_eq, decide_eq_true_eq, List.cons.injEq, himm]
  refine and_congr_right fun hopcode => ?_
  rw [hopcode]

theorem mem_findAligned_cons {opcode : UInt8} {data : List UInt8}
    (hdata : data.length = Opcode.immediateLength opcode) {code : List UInt8} {o : Nat} :
    o ∈ findAligned code (opcode :: data) ↔ ⟨o, opcode, data⟩ ∈ instructions code := by
  rw [findAligned_cons hdata]
  simp only [List.mem_map, List.mem_filter, decide_eq_true_eq]
  constructor
  · rintro ⟨i, ⟨hi, rfl, rfl⟩, rfl⟩
    exact hi
  · intro h
    exact ⟨_, ⟨h, rfl, rfl⟩, rfl⟩

theorem getLast?_instructionsFrom {code : List UInt8} {p : Nat} (hp : Reaches code p)
    (hlt : p < code.length) : ∃ last, (instructionsFrom p (code.drop p)).getLast? = some last ∧
      Reaches code (last.offset + 1 + Opcode.immediateLength last.opcode) ∧
      code.length ≤ last.offset + 1 + Opcode.immediateLength last.opcode := by
  have hop : code[p]? = some code[p] := List.getElem?_eq_getElem hlt
  rw [instructionsFrom_drop hop, List.getLast?_cons]
  by_cases hnext : p + 1 + Opcode.immediateLength code[p] < code.length
  · obtain ⟨last, hlast, hr, hle⟩ := getLast?_instructionsFrom (hp.next hop) hnext
    exact ⟨last, by rw [hlast, Option.getD_some], hr, hle⟩
  · rw [List.drop_eq_nil_of_le (by omega), instructionsFrom_nil]
    exact ⟨_, rfl, hp.next hop, Nat.le_of_not_lt hnext⟩
termination_by code.length - p

theorem walkEnd_spec (code : List UInt8) :
    Reaches code (walkEnd code) ∧ code.length ≤ walkEnd code := by
  unfold walkEnd
  rw [instructions_eq]
  cases code with
  | nil => exact ⟨by simpa using Reaches.start, by simp⟩
  | cons b rest =>
    obtain ⟨last, hlast, hr, hle⟩ :=
      getLast?_instructionsFrom (.start : Reaches (b :: rest) 0) (Nat.zero_lt_succ rest.length)
    rw [List.drop_zero] at hlast
    rw [hlast]
    exact ⟨hr, hle⟩

theorem reaches_walkEnd (code : List UInt8) : Reaches code (walkEnd code) := (walkEnd_spec code).1

theorem length_le_walkEnd (code : List UInt8) : code.length ≤ walkEnd code := (walkEnd_spec code).2

theorem walkEnd_eq_of_reaches {code : List UInt8} {p : Nat} (hp : Reaches code p)
    (hle : code.length ≤ p) : walkEnd code = p :=
  (reaches_walkEnd code).end_unique (length_le_walkEnd code) hp hle

/-- The seam of two codes starts an instruction just when the walk of the first ends on it: data
that the first one lacks is taken from the second. -/
theorem reaches_seam {a b : List UInt8} :
    Reaches (a ++ b) a.length ↔ walkEnd a = a.length := by
  constructor
  · intro h
    exact walkEnd_eq_of_reaches (h.of_append (Nat.le_refl _)) (Nat.le_refl _)
  · intro h
    have := (reaches_walkEnd a).append (b := b)
    rwa [h] at this

/-- Zeros behind a code lead its walk to their end, unless its last push has more data. -/
theorem walkEnd_append_zeros (code : List UInt8) (n : Nat) :
    walkEnd (code ++ List.replicate n 0) = max (code.length + n) (walkEnd code) := by
  have hlen : (code ++ List.replicate n 0).length = code.length + n := by simp
  have hle := length_le_walkEnd code
  have hr : Reaches (code ++ List.replicate n 0) (walkEnd code) := (reaches_walkEnd code).append
  by_cases h : walkEnd code ≤ code.length + n
  · have hz : ∀ k < code.length + n - walkEnd code,
        (code ++ List.replicate n 0)[walkEnd code + k]? = some 0 := by
      intro k hk
      rw [List.getElem?_append_right (by omega), List.getElem?_replicate_of_lt (by omega)]
    have hend := hr.add_zeros hz
    rw [Nat.add_sub_cancel' h] at hend
    rw [walkEnd_eq_of_reaches hend (Nat.le_of_eq hlen), Nat.max_eq_left h]
  · have hgt := Nat.le_of_not_le h
    rw [walkEnd_eq_of_reaches hr (by rwa [hlen]), Nat.max_eq_right hgt]

end ImageLinker.Evm
