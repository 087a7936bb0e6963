import ImageLinker.ZeroPush
import ImageLinker.Proofs.Relocation

/-! Code pushes the same zeros after its `DUP1` bytes behind `PUSH0` are replaced. -/
namespace ImageLinker.ZeroPush

open Evm

variable {code : List UInt8} {env : Environment} {k : Nat}

theorem mem_sites : k ∈ sites code ↔ ∃ o, Reaches code o ∧ code[o]? = some Opcode.push0 ∧
    o + 1 = k ∧ code[k]? = some Opcode.dup1 := by
  simp only [sites, List.mem_filter, List.mem_map, beq_iff_eq, List.getElem?_toArray]
  constructor
  · rintro ⟨⟨i, ⟨hi, hop⟩, rfl⟩, hdup⟩
    obtain ⟨hr, hc, _⟩ := (mem_instructions i).mp hi
    exact ⟨i.offset, hr, by rw [hc, hop], rfl, hdup⟩
  · rintro ⟨o, hr, hop, rfl, hdup⟩
    obtain ⟨i, hi, rfl, hpush⟩ := hr.exists_instruction hop
    exact ⟨⟨i, ⟨hi, hpush⟩, rfl⟩, hdup⟩

theorem getElem?_of_mem_sites (h : k ∈ sites code) : code[k]? = some Opcode.dup1 := by
  obtain ⟨_, _, _, _, hdup⟩ := mem_sites.mp h
  exact hdup

theorem reaches_of_mem_sites (h : k ∈ sites code) : Reaches code k := by
  obtain ⟨o, hr, hop, rfl, _⟩ := mem_sites.mp h
  exact hr.next hop

theorem getElem?_replace (code : List UInt8) (k : Nat) :
    (replace code).1[k]? = if k ∈ sites code then some Opcode.push0 else code[k]? := by
  simp only [replace, Array.getElem?_toList, getElem?_foldl_setIfInBounds, List.size_toArray,
    List.getElem?_toArray]
  by_cases h : k ∈ sites code
  · have hlt := (List.getElem?_eq_some_iff.mp (getElem?_of_mem_sites h)).1
    rw [if_pos ⟨h, hlt⟩, if_pos h]
  · rw [if_neg (fun hk => h hk.1), if_neg h]

theorem length_replace (code : List UInt8) : (replace code).1.length = code.length := by
  have hsize (sites : List Nat) (xs : Array UInt8) :
      (sites.foldl (fun xs site => xs.setIfInBounds site Opcode.push0) xs).size = xs.size := by
    induction sites generalizing xs with
    | nil => rfl
    | cons site rest ih => rw [List.foldl_cons, ih, Array.size_setIfInBounds]
  simp only [replace, Array.length_toList, hsize, List.size_toArray]

theorem pairwise_sites (code : List UInt8) : (sites code).Pairwise (· < ·) := by
  unfold sites
  apply List.Pairwise.filter
  rw [List.pairwise_map]
  exact ((pairwise_instructions code).filter _).imp fun h => Nat.succ_lt_succ h

/-- Whatever follows a code, replacing changes the bytes at its sites and no others. -/
theorem getElem?_replace_append_ne {code rest : List UInt8} {k : Nat} :
    ((replace code).1 ++ rest)[k]? ≠ (code ++ rest)[k]? ↔ k ∈ sites code := by
  have hlen := length_replace code
  by_cases hlt : k < code.length
  · rw [List.getElem?_append_left (hlen ▸ hlt), List.getElem?_append_left hlt, getElem?_replace]
    by_cases hsite : k ∈ sites code
    · rw [if_pos hsite, getElem?_of_mem_sites hsite]
      exact iff_of_true (by decide) hsite
    · rw [if_neg hsite]
      exact iff_of_false (not_not_intro rfl) hsite
  · have hle := Nat.le_of_not_lt hlt
    rw [List.getElem?_append_right (hlen ▸ hle), List.getElem?_append_right hle, hlen]
    refine iff_of_false (not_not_intro rfl) fun hsite => hlt ?_
    exact (List.getElem?_eq_some_iff.mp (getElem?_of_mem_sites hsite)).1

theorem immediateLength_replace (code : List UInt8) (k : Nat) :
    (replace code).1[k]?.map Opcode.immediateLength = code[k]?.map Opcode.immediateLength := by
  rw [getElem?_replace]
  by_cases h : k ∈ sites code
  · rw [if_pos h, getElem?_of_mem_sites h]
    rfl
  · rw [if_neg h]

/-- The same offsets start instructions before and after. -/
theorem reaches_replace {p : Nat} : Reaches (replace code).1 p ↔ Reaches code p := by
  constructor
  · exact Reaches.of_forall_immediateLength_eq (immediateLength_replace code)
  · exact Reaches.of_forall_immediateLength_eq fun k => (immediateLength_replace code k).symm

/-- No `JUMPDEST` is replaced, and none is put in. -/
theorem getElem?_replace_eq_jumpDest_iff :
    (replace code).1[k]? = some Opcode.jumpDest ↔ code[k]? = some Opcode.jumpDest := by
  rw [getElem?_replace]
  by_cases h : k ∈ sites code
  · rw [if_pos h, getElem?_of_mem_sites h]
    simp [Opcode.push0, Opcode.dup1, Opcode.jumpDest]
  · rw [if_neg h]

theorem isDestination_replace (offset : Nat) :
    (Frame.ofCode (replace code).1 env).isDestination offset =
      (Frame.ofCode code env).isDestination offset := by
  rw [Bool.eq_iff_iff, isDestination_ofCode, isDestination_ofCode, reaches_replace,
    getElem?_replace_eq_jumpDest_iff]

theorem not_mem_sites_of_data {p : Nat} {opcode : UInt8} (hr : Reaches code p)
    (hop : code[p]? = some opcode) (hlt : p < k)
    (hle : k ≤ p + Opcode.immediateLength opcode) : k ∉ sites code := by
  intro hsite
  have hnext := hr.next_le hop (reaches_of_mem_sites hsite) hlt
  omega

theorem take_drop_replace {pc : Nat} {opcode : UInt8} (hr : Reaches code pc)
    (hop : code[pc]? = some opcode) :
    ((replace code).1.drop (pc + 1)).take (Opcode.immediateLength opcode) =
      (code.drop (pc + 1)).take (Opcode.immediateLength opcode) := by
  apply List.ext_getElem?
  intro j
  by_cases hj : j < Opcode.immediateLength opcode
  · have hsite : pc + 1 + j ∉ sites code :=
      not_mem_sites_of_data hr hop (by omega) (by omega)
    rw [List.getElem?_take_of_lt hj, List.getElem?_take_of_lt hj, List.getElem?_drop,
      List.getElem?_drop, getElem?_replace, if_neg hsite]
  · rw [List.getElem?_take_eq_none (Nat.le_of_not_lt hj),
      List.getElem?_take_eq_none (Nat.le_of_not_lt hj)]

theorem agrees_replace {pc : Nat} {opcode : UInt8} (hr : Reaches code pc)
    (hop : code[pc]? = some opcode) (hcopy : Operation.ofByte opcode ≠ .copy .code) :
    Agrees (.ofCode code env) (.ofCode (replace code).1 env) 0 pc opcode where
  calldata := rfl
  push0 := rfl
  immediate w hw := by
    have hwidth := Operation.width_ofByte opcode
    rw [hw] at hwidth
    have hdata := take_drop_replace hr hop
    rw [← hwidth] at hdata
    simp only [Frame.ofCode, Array.toList_extract, List.extract_eq_take_drop,
      Nat.add_sub_cancel_left, Nat.add_zero]
    exact congrArg (Word.ofImmediate · w) hdata
  code hw := absurd hw hcopy
  codeSize _ := length_replace code
  counter _ := rfl
  jump _ := ⟨rfl, isDestination_replace⟩

/-- At a site the frame stands behind a `PUSH0` that it has performed. -/
def ZeroOnTop (code : List UInt8) (env : Environment) (m : Machine) : Prop :=
  m.pc ∈ sites code → env.push0 = true ∧ m.stack.head? = some .zero

variable {spawn : Option (List UInt8 → Outcome)} {m m' : Machine}

/-- No jump leads to a site, and only the `PUSH0` before it goes on to it. -/
theorem zeroOnTop_of_step (hr : Reaches code m.pc)
    (h : m.step (.ofCode code env) spawn = .next m') : ZeroOnTop code env m' := by
  intro hsite
  obtain ⟨o, hro, hpush, hnext, hdup⟩ := mem_sites.mp hsite
  obtain ⟨opcode, hop, _, hperf, hp⟩ := Machine.of_step_next h
  rw [Frame.getElem?_code_ofCode] at hop
  cases hp with
  | jumped _ hdest _ _ =>
    have hjump := (isDestination_ofCode.mp hdest).2
    rw [hdup] at hjump
    cases hjump
  | onward hpc _ _ =>
    have hpc : m'.pc = m.pc + 1 + Opcode.immediateLength opcode := hpc
    -- The instruction before the site is the `PUSH0` itself, since none skips its start.
    have hle := (hr.le_or_next_le hop hro).resolve_right (by omega)
    obtain rfl : m.pc = o := by omega
    rw [hpush, Option.some.injEq] at hop
    subst hop
    rw [Machine.perform_pushZero rfl] at hperf
    by_cases hzero : env.push0 = true
    · rw [if_pos (show (Frame.ofCode code env).push0 = true from hzero)] at hperf
      rw [Machine.stack_of_push hperf]
      exact ⟨hzero, rfl⟩
    · rw [if_neg (show ¬ (Frame.ofCode code env).push0 = true from hzero)] at hperf
      cases hperf

/-- At a site both opcodes push a zero. -/
theorem step_replace_of_mem_sites (hsite : m.pc ∈ sites code) (hz : ZeroOnTop code env m)
    (hs : m.steps < stepLimit) :
    m.step (.ofCode (replace code).1 env) spawn = m.step (.ofCode code env) spawn := by
  obtain ⟨hzero, htop⟩ := hz hsite
  obtain ⟨below, hstack⟩ : ∃ below, m.stack = .zero :: below := List.head?_eq_some_iff.mp htop
  have hf : (Frame.ofCode code env).code[m.pc]? = some Opcode.dup1 := by
    rw [Frame.getElem?_code_ofCode, getElem?_of_mem_sites hsite]
  have hg : (Frame.ofCode (replace code).1 env).code[m.pc]? = some Opcode.push0 := by
    rw [Frame.getElem?_code_ofCode, getElem?_replace, if_pos hsite]
  have hcounted : { m with steps := m.steps + 1 }.stack = .zero :: below := hstack
  rw [Machine.step_of_opcode hf hs, Machine.step_of_opcode hg hs, Machine.perform_pushZero rfl,
    Machine.perform_dup_one rfl hcounted]
  exact if_pos hzero

/-- An instruction that is not replaced does the same, a copy of the code unless it goes on. -/
theorem perform_replace {opcode : UInt8} (hr : Reaches code m.pc) (hop : code[m.pc]? = some opcode)
    (hcopy : ∀ m', Operation.ofByte opcode = .copy .code →
      m.perform (.ofCode code env) spawn opcode ≠ .next m') :
    m.perform (.ofCode (replace code).1 env) spawn opcode =
      m.perform (.ofCode code env) spawn opcode := by
  by_cases hread : Operation.ofByte opcode = .copy .code
  · cases hres : m.perform (.ofCode code env) spawn opcode with
    | next m' => exact absurd hres (hcopy m' hread)
    | halt r m' => exact Machine.perform_copy_of_halt hread hres
  · have hplaced : (m.placed {}).perform (.ofCode (replace code).1 env) spawn opcode =
        (m.perform (.ofCode code env) spawn opcode).placed {} :=
      Machine.placed_perform (agrees_replace hr hop hread)
    rwa [Machine.placed_default, Transition.placed_default] at hplaced

/-- Every step is the same, except for a copy of the code that goes on. -/
theorem step_replace (hr : Reaches code m.pc) (hz : ZeroOnTop code env m)
    (hcopy : ∀ opcode m', code[m.pc]? = some opcode → Operation.ofByte opcode = .copy .code →
      m.step (.ofCode code env) spawn ≠ .next m') :
    m.step (.ofCode (replace code).1 env) spawn = m.step (.ofCode code env) spawn := by
  by_cases hs : m.steps < stepLimit
  · by_cases hsite : m.pc ∈ sites code
    · exact step_replace_of_mem_sites hsite hz hs
    · have hbyte := getElem?_replace code m.pc
      rw [if_neg hsite, ← Frame.getElem?_code_ofCode _ env] at hbyte
      have hf := Frame.getElem?_code_ofCode code env m.pc
      cases hop : code[m.pc]? with
      | none =>
        rw [hop] at hbyte hf
        rw [Machine.step_of_end hf hs, Machine.step_of_end hbyte hs]
      | some opcode =>
        rw [hop] at hbyte hf
        rw [Machine.step_of_opcode hf hs, Machine.step_of_opcode hbyte hs]
        refine perform_replace hr hop fun m' hread hnext => hcopy opcode m' hop hread ?_
        rw [Machine.step_of_opcode hf hs, hnext]
  · have hlimit := Nat.le_of_not_lt hs
    rw [Machine.step_of_limit hlimit, Machine.step_of_limit hlimit]

theorem zeroOnTop_of_after {n : Nat}
    (h : ({} : Machine).after (.ofCode code env) spawn n = .next m) : ZeroOnTop code env m := by
  cases n with
  | zero =>
    cases h
    intro hsite
    obtain ⟨o, _, _, hzero, _⟩ := mem_sites.mp hsite
    exact absurd hzero (Nat.succ_ne_zero o)
  | succ n =>
    obtain ⟨m₀, h₀, hstep⟩ := Machine.of_after_succ_next h
    exact zeroOnTop_of_step (Machine.reaches_of_after_next .start h₀) hstep

theorem after_replace {n : Nat}
    (h : ∀ k < n, ¬ Machine.Completes (.ofCode code env) spawn (.copy .code) k) :
    ({} : Machine).after (.ofCode (replace code).1 env) spawn n =
      ({} : Machine).after (.ofCode code env) spawn n := by
  have hsame : ∀ k < n, ∀ m, ({} : Machine).after (.ofCode code env) spawn k = .next m →
      (m.placed {}).step (.ofCode (replace code).1 env) spawn =
        (m.step (.ofCode code env) spawn).placed {} := by
    intro k hk m hm
    rw [Machine.placed_default, Transition.placed_default]
    refine step_replace (Machine.reaches_of_after_next .start hm) (zeroOnTop_of_after hm) ?_
    intro opcode m' hop hread hnext
    rw [← Frame.getElem?_code_ofCode code env] at hop
    exact h k hk ⟨m, m', opcode, hm, hop, hread, hnext⟩
  have hplaced := Machine.placed_after hsame
  rwa [Machine.placed_default, Transition.placed_default] at hplaced

/-- Until the outermost frame has copied its code, the replaced code brings it to the same state
after every number of steps; a run that never copies its code ends alike. -/
theorem replace_preserves_run (code : List UInt8) (env : Environment) :
    (∀ n, (∀ k < n, ¬ Machine.Completes (.ofCode code env) env.spawn (.copy .code) k) →
      ({} : Machine).after (.ofCode (replace code).1 env) env.spawn n =
        ({} : Machine).after (.ofCode code env) env.spawn n) ∧
    ((∀ k, ¬ Machine.Completes (.ofCode code env) env.spawn (.copy .code) k) →
      run (replace code).1 env = run code env) := by
  constructor
  · intro n h
    exact after_replace h
  · intro h
    rw [run_eq_outcome_after, run_eq_outcome_after, after_replace fun k _ => h k]

theorem replace_preserves_run_zeros :
    (replace [0x5f, 0x80, 0x00]).1 = [0x5f, 0x5f, 0x00] ∧
      run (replace [0x5f, 0x80, 0x00]).1 ⟨[], true⟩ = run [0x5f, 0x80, 0x00] ⟨[], true⟩ := by
  have hcode : instructions [0x5f, 0x80, 0x00] =
      [⟨0, 0x5f, []⟩, ⟨1, 0x80, []⟩, ⟨2, 0x00, []⟩] := by cbv
  constructor
  · cbv
  · refine (replace_preserves_run [0x5f, 0x80, 0x00] ⟨[], true⟩).2 ?_
    refine Machine.not_completes_of_forall ?_
    rw [hcode]
    decide

end ImageLinker.ZeroPush
