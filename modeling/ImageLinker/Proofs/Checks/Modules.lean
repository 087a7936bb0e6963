import ImageLinker.Proofs.Checks.Basic
import ImageLinker.Proofs.Extraction
import ImageLinker.Proofs.ZeroPush

/-!
The checked steps from a module's place in the list to its code: planning and drawing probes, and
cutting the code out of what the compiler printed. No check fails, and the steps come to what the
unchecked ones come to.
-/
namespace ImageLinker.Checked

variable {α : Type}

/-- Totals of so many equal counts on top of a first one. -/
def totals (each : Nat) : (modules total : Nat) → Checked (List Nat)
  | 0, _ => return []
  | modules + 1, total => do
    let total ← number (total + each)
    return total :: (← totals each modules total)

def plan (layout : Layout) (modules : Nat) : Checked ProbePlan := do
  return ⟨layout.probesPerModule, ← totals layout.probesPerModule modules 0⟩

def probesFor (plan : ProbePlan) (index : Nat) : Checked Nat := do
  get plan.cumulative (← sub index 1)

theorem totals_eq {each modules k : Nat} (h : each * (k + modules) < UInt64.size) :
    totals each modules (each * k) =
      .ok ((List.range' k modules).map fun i => each * (i + 1)) := by
  induction modules generalizing k with
  | zero => rfl
  | succ modules ih =>
    have hnext : each * k + each = each * (k + 1) := (Nat.mul_succ each k).symm
    have hle : each * (k + 1) ≤ each * (k + (modules + 1)) := Nat.mul_le_mul_left each (by omega)
    rw [totals, hnext, number_eq (by omega), ok_bind, ih (by rwa [Nat.add_right_comm]), ok_bind]
    rfl

theorem probesPerModule_le (layout : Layout) : layout.probesPerModule ≤ 256 := by
  have hle : 2 ^ layout.shift ≤ 2 ^ 13 := Nat.pow_le_pow_right (by omega) layout.shift_le
  have heq : layout.probesPerModule = 2 ^ layout.shift / 32 := rfl
  omega

theorem plan_eq (layout : Layout) {modules : Nat} (h : modules < Layout.maxSections) :
    plan layout modules = .ok (.make layout modules) := by
  have hsize : layout.probesPerModule * (0 + modules) < UInt64.size := by
    have hle := Nat.mul_le_mul (probesPerModule_le layout) (Nat.le_of_lt h)
    have hnum : 256 * Layout.maxSections < UInt64.size := by decide
    rw [Nat.zero_add]
    omega
  have htotals := totals_eq hsize
  rw [Nat.mul_zero] at htotals
  rw [plan, htotals, List.range_eq_range'.symm]
  rfl

theorem probesFor_make (layout : Layout) {modules i : Nat} (h : i < modules) :
    probesFor (.make layout modules) (i + 1) = .ok (layout.probesPerModule * (i + 1)) := by
  have hget : (ProbePlan.make layout modules).cumulative[i]? =
      some (layout.probesPerModule * (i + 1)) := by
    simp [ProbePlan.make, h]
  rw [probesFor, sub_eq (Nat.succ_pos i), ok_bind]
  exact get_eq hget

def modify (l : List α) (i : Nat) (f : α → α) : Checked (List α) := do
  set l i (f (← get l i))

/-- Chunks of a width, made odd, until one does not begin with zero. -/
def drawChunk (width : Nat) : (fuel : Nat) → ByteStream → Checked (List UInt8 × ByteStream)
  | 0, _ => breach .endless
  | fuel + 1, s => do
    let chunk ← modify (s.peek width) (← sub width 1) (· ||| 1)
    if (← get chunk 0) ≠ 0 then return (chunk, s.skip width)
    drawChunk width fuel (s.skip width)

/-- More chunks than a stream can give that begin with zero. -/
def enough (s : ByteStream) : Nat := s.rest.length + 1

def drawSentinel (width : Nat) (s : ByteStream) : Checked (Sentinel × ByteStream) := do
  assert (1 ≤ width ∧ width ≤ 32)
  let (chunk, s) ← drawChunk width (enough s) s
  if h : 1 ≤ chunk.length ∧ chunk.length ≤ 32 then return (⟨chunk, h.1, h.2⟩, s)
  breach .assertion

def offsetAt (plan : ProbePlan) (k : Nat) : Checked UInt8 := do
  subByte 0xff (UInt8.ofNat (← mod k plan.perModule))

def drawFrom (plan : ProbePlan) (k : Nat) :
    (count : Nat) → ByteStream → Checked (List Probe × ByteStream)
  | 0, s => return ([], s)
  | count + 1, s => do
    let offset ← offsetAt plan k
    let (sentinel, s) ← drawSentinel (ProbePlan.sentinelWidth k) s
    let (probes, s) ← drawFrom plan (k + 1) count s
    return (⟨offset, sentinel⟩ :: probes, s)

def draw (plan : ProbePlan) (index : Nat) (s : ByteStream) : Checked (List Probe × ByteStream) := do
  drawFrom plan 0 (← probesFor plan index) s

theorem modify_eq {l : List α} {i : Nat} (h : i < l.length) (f : α → α) :
    modify l i f = .ok (l.set i (f l[i])) := by
  rw [modify, get_eq (List.getElem?_eq_getElem h), ok_bind, set_eq h]

theorem makeOdd_eq_set {chunk : List UInt8} (h : chunk.length - 1 < chunk.length) :
    Sentinel.makeOdd chunk = chunk.set (chunk.length - 1) (chunk[chunk.length - 1] ||| 1) := by
  fun_induction Sentinel.makeOdd chunk with
  | case1 => exact absurd h (by decide)
  | case2 b => rfl
  | case3 b rest hrest ih =>
    obtain ⟨c, rest, rfl⟩ := List.exists_cons_of_ne_nil fun hnil => hrest hnil
    rw [ih (by simp)]
    rfl

theorem head?_makeOdd (b : UInt8) (rest : List UInt8) :
    (Sentinel.makeOdd (b :: rest))[0]? = some (if rest = [] then b ||| 1 else b) := by
  cases rest <;> rfl

theorem or_one_ne_zero (b : UInt8) : b ||| 1 ≠ 0 := by
  intro h
  have hnat := congrArg UInt8.toNat h
  rw [UInt8.toNat_or] at hnat
  exact absurd (Nat.or_eq_zero_iff.mp hnat).2 (by decide)

theorem exists_peek (s : ByteStream) (n : Nat) :
    ∃ tail, s.peek (n + 1) = s.rest.head?.getD ByteStream.filler :: tail ∧ tail.length = n := by
  have hlen := s.length_peek (n + 1)
  obtain ⟨tail, hpeek⟩ : ∃ tail, s.peek (n + 1) = s.rest.head?.getD ByteStream.filler :: tail := by
    obtain ⟨rest, used⟩ := s
    cases rest with
    | nil => exact ⟨List.replicate n ByteStream.filler, rfl⟩
    | cons b rest => exact ⟨_, rfl⟩
  rw [hpeek] at hlen
  exact ⟨tail, hpeek, Nat.succ.inj hlen⟩

/-- The first try is taken unless it begins with zero and is wider than one byte. -/
theorem drawChunk_cases (n : Nat) (s : ByteStream) :
    Sentinel.drawChunk (n + 1) s =
      if s.rest.head?.getD ByteStream.filler = 0 ∧ n ≠ 0 then
        Sentinel.drawChunk (n + 1) (s.skip (n + 1))
      else (Sentinel.makeOdd (s.peek (n + 1)), s.skip (n + 1)) := by
  obtain ⟨rest, used⟩ := s
  conv_lhs => rw [Sentinel.drawChunk.eq_def]
  split
  · rename_i tail used' heq
    cases heq
    by_cases hn : n = 0
    · rw [if_pos (by omega), if_neg fun h => h.2 hn]
    · rw [if_neg (by omega), if_pos ⟨rfl, hn⟩]
      rfl
  · rename_i hne
    refine (if_neg fun h => ?_).symm
    cases rest with
    | nil => exact absurd h.1 (show ByteStream.filler ≠ 0 by decide)
    | cons b rest => exact hne rest used (by rw [show b = 0 from h.1])

theorem drawChunk_eq {width : Nat} (hwidth : 1 ≤ width) {fuel : Nat} {s : ByteStream}
    (h : s.rest.length < fuel) : drawChunk width fuel s = .ok (Sentinel.drawChunk width s) := by
  induction fuel generalizing s with
  | zero => exact absurd h (Nat.not_lt_zero _)
  | succ fuel ih =>
    obtain ⟨n, rfl⟩ : ∃ n, width = n + 1 := ⟨width - 1, by omega⟩
    obtain ⟨tail, hpeek, htail⟩ := exists_peek s n
    have hlast : (s.peek (n + 1)).length - 1 = n := by rw [s.length_peek, Nat.add_sub_cancel]
    have hmodify : modify (s.peek (n + 1)) n (· ||| 1) =
        .ok (Sentinel.makeOdd (s.peek (n + 1))) := by
      have hlt : (s.peek (n + 1)).length - 1 < (s.peek (n + 1)).length := by
        rw [s.length_peek]
        omega
      rw [makeOdd_eq_set hlt, ← modify_eq hlt (· ||| 1), hlast]
    have hhead := head?_makeOdd (s.rest.head?.getD ByteStream.filler) tail
    rw [← hpeek] at hhead
    have hnil : tail = [] ↔ n = 0 := by rw [← List.length_eq_zero_iff, htail]
    have hsub : sub (n + 1) 1 = .ok n := sub_eq (Nat.succ_pos n)
    rw [drawChunk, hsub, ok_bind, hmodify, ok_bind, get_eq hhead, ok_bind, drawChunk_cases]
    by_cases hagain : s.rest.head?.getD ByteStream.filler = 0 ∧ n ≠ 0
    · obtain ⟨hzero, hn⟩ := hagain
      rw [if_neg (mt hnil.mp hn), if_neg (not_not_intro hzero), if_pos ⟨hzero, hn⟩]
      refine ih ?_
      have hrest : s.rest ≠ [] := by
        rintro hrest
        rw [hrest] at hzero
        exact absurd hzero (by decide)
      have hpos := List.length_pos_iff.mpr hrest
      simp only [ByteStream.skip, List.length_drop]
      omega
    · rw [if_neg hagain, if_pos]
      · rfl
      · split
        · exact or_one_ne_zero _
        · rename_i htail
          exact fun hzero => hagain ⟨hzero, mt hnil.mpr htail⟩

theorem drawSentinel_eq {width : Nat} {s rest : ByteStream} {sentinel : Sentinel}
    (h : Sentinel.draw width s = .ok (sentinel, rest)) :
    drawSentinel width s = .ok (sentinel, rest) := by
  unfold Sentinel.draw at h
  split at h
  · rename_i hwidth
    cases h
    have hlen := Sentinel.length_drawChunk width s
    have henough : s.rest.length < enough s := Nat.lt_succ_self _
    rw [drawSentinel, assert_eq hwidth, ok_bind, drawChunk_eq hwidth.1 henough, ok_bind]
    exact dif_pos (by omega)
  · cases h

theorem offsetAt_eq {plan : ProbePlan} (h : 0 < plan.perModule) (k : Nat) :
    offsetAt plan k = .ok (plan.offsetAt k) := by
  have hle : UInt8.ofNat (k % plan.perModule) ≤ 0xff :=
    UInt8.le_iff_toNat_le.mpr (Nat.le_of_lt_succ (UInt8.toNat_lt _))
  rw [offsetAt, mod, if_neg (Nat.ne_of_gt h), ok_bind, subByte_eq hle]
  rfl

theorem drawFrom_eq {plan : ProbePlan} (hplan : 0 < plan.perModule) (done : Array Probe)
    (k count : Nat) (s : ByteStream) : ∃ probes rest, drawFrom plan k count s = .ok (probes, rest) ∧
      plan.drawFrom done k count s = .ok (done.toList ++ probes, rest) := by
  induction count generalizing done k s with
  | zero => exact ⟨[], s, rfl, by rw [List.append_nil]; rfl⟩
  | succ count ih =>
    obtain ⟨sentinel, next, hdraw⟩ := Sentinel.exists_draw (ProbePlan.sentinelWidth_mem k) s
    obtain ⟨probes, rest, hfrom, hfrom'⟩ :=
      ih (done.push ⟨plan.offsetAt k, sentinel⟩) (k + 1) next
    refine ⟨⟨plan.offsetAt k, sentinel⟩ :: probes, rest, ?_, ?_⟩
    · rw [drawFrom, offsetAt_eq hplan, ok_bind, drawSentinel_eq hdraw, ok_bind]
      dsimp only
      rw [hfrom, ok_bind]
      rfl
    · rw [ProbePlan.drawFrom, hdraw]
      dsimp only [bind, Except.bind]
      rw [hfrom', Array.toList_push, List.append_assoc, List.singleton_append]

/-- Every section of a plan gets its probes. -/
theorem draw_eq (layout : Layout) {modules i : Nat} (h : i < modules) (s : ByteStream) :
    ∃ probes rest, draw (.make layout modules) (i + 1) s = .ok (probes, rest) ∧
      (ProbePlan.make layout modules).draw (i + 1) s = .ok (probes, rest) := by
  have hpos : 0 < (ProbePlan.make layout modules).perModule := layout.probesPerModule_pos
  obtain ⟨probes, rest, hfrom, hfrom'⟩ :=
    drawFrom_eq hpos #[] 0 (layout.probesPerModule * (i + 1)) s
  refine ⟨probes, rest, ?_, ?_⟩
  · rw [draw, probesFor_make layout h, ok_bind, hfrom]
  · rw [ProbePlan.draw, ProbePlan.probesFor_make h]
    exact hfrom'

def pushOpcode (n : Nat) : Checked (Option UInt8) := do
  if 1 ≤ n ∧ n ≤ 32 then
    return some (← subByte (← addByte Evm.Opcode.push1 (UInt8.ofNat n)) 1)
  return none

def encoding (p : Probe) (variant : Variant) : Checked (List UInt8) := do
  let push ← expect (← pushOpcode p.sentinel.width)
  return push :: p.sentinel.bytes ++ Probe.offsetPush variant p.offset ++ [Evm.Opcode.mstore]

def lastWindow? (pattern code : List UInt8) : (count : Nat) → Option Nat
  | 0 => none
  | start + 1 =>
    if (code.drop start).take pattern.length = pattern then some start
    else lastWindow? pattern code start

def codeStart? (p : Probe) (variant : Variant) (code : List UInt8) : Checked (Option Nat) := do
  let pattern ← encoding p variant
  if code.length < pattern.length then return none
  -- windows have at least one byte
  assert (pattern.length ≠ 0)
  return (lastWindow? pattern code (code.length - pattern.length + 1)).map (· + pattern.length)

theorem pushOpcode_eq (n : Nat) : pushOpcode n = .ok (Evm.Opcode.push? n) := by
  have hall : ∀ n : Fin 33, pushOpcode n = .ok (Evm.Opcode.push? n) := by decide
  by_cases hn : n < 33
  · exact hall ⟨n, hn⟩
  · rw [pushOpcode, Evm.Opcode.push?, if_neg (by omega), if_neg (by omega)]
    rfl

theorem encoding_eq (p : Probe) (variant : Variant) :
    encoding p variant = .ok (p.encoding variant) := by
  have hpush : Evm.Opcode.push? p.sentinel.width =
      some (UInt8.ofNat (0x5f + p.sentinel.width)) :=
    if_pos ⟨p.sentinel.width_pos, p.sentinel.width_le⟩
  rw [encoding, pushOpcode_eq, ok_bind, Probe.encoding, hpush]
  rfl

theorem lastWindow?_of_lastAt {pattern code : List UInt8} {offset count : Nat}
    (h : LastAt pattern code offset) (hcount : offset < count) :
    lastWindow? pattern code count = some offset := by
  induction count with
  | zero => exact absurd hcount (Nat.not_lt_zero _)
  | succ start ih =>
    rw [lastWindow?]
    split
    · rename_i hwindow
      have hle := h.2 start (List.prefix_iff_eq_take.mpr hwindow.symm)
      congr 1
      omega
    · rename_i hwindow
      refine ih (lt_of_le_of_ne (Nat.le_of_lt_succ hcount) ?_)
      rintro rfl
      exact hwindow (List.prefix_iff_eq_take.mp h.1).symm

theorem lastWindow?_of_not_isInfix {pattern code : List UInt8} (h : ¬ pattern <:+: code)
    (count : Nat) : lastWindow? pattern code count = none := by
  induction count with
  | zero => rfl
  | succ start ih =>
    rw [lastWindow?, if_neg, ih]
    exact fun hwindow =>
      h (isInfix_iff_exists_drop.mpr ⟨start, List.prefix_iff_eq_take.mpr hwindow.symm⟩)

theorem add_length_le_of_lastAt {pattern code : List UInt8} {offset : Nat} (hne : pattern ≠ [])
    (h : LastAt pattern code offset) : offset + pattern.length ≤ code.length := by
  have hlen := h.1.length_le
  have hpos := List.length_pos_iff.mpr hne
  rw [List.length_drop] at hlen
  omega

theorem endOfLast?_of_lastAt {pattern code : List UInt8} {offset : Nat} (hne : pattern ≠ [])
    (h : LastAt pattern code offset) :
    Probe.endOfLast? pattern code = some (offset + pattern.length) := by
  obtain ⟨honly, hsplit⟩ := Probe.onlyAtStart_of_lastAt h
  have hle := add_length_le_of_lastAt hne h
  conv_lhs => rw [hsplit]
  rw [Probe.endOfLast?_append hne honly, List.length_take, Nat.min_eq_left (by omega)]

/-- The search by windows finds what the search from the end finds, inside the code. -/
theorem codeStart?_eq (p : Probe) (variant : Variant) (code : List UInt8) :
    codeStart? p variant code = .ok (p.codeStart? variant code) ∧
      ∀ start, p.codeStart? variant code = some start → start ≤ code.length := by
  have hne := p.encoding_ne_nil variant
  have hpos : (p.encoding variant).length ≠ 0 := fun h => hne (List.length_eq_zero_iff.mp h)
  rw [codeStart?, encoding_eq, ok_bind, Probe.codeStart?]
  by_cases hoccurs : p.encoding variant <:+: code
  · obtain ⟨offset, hoffset⟩ := exists_lastAt hne hoccurs
    have hle := add_length_le_of_lastAt hne hoffset
    rw [if_neg (by omega), assert_eq hpos, lastWindow?_of_lastAt hoffset (by omega),
      endOfLast?_of_lastAt hne hoffset]
    refine ⟨rfl, fun start hstart => ?_⟩
    cases hstart
    exact hle
  · rw [Probe.endOfLast?_of_not_isInfix hoccurs]
    refine ⟨?_, fun start hstart => absurd hstart.symm (Option.some_ne_none start)⟩
    split
    · rfl
    · rw [assert_eq hpos, lastWindow?_of_not_isInfix hoccurs]
      rfl

def immediateLength (opcode : UInt8) : Checked Nat := do
  if Evm.Opcode.push1 ≤ opcode ∧ opcode ≤ Evm.Opcode.push32 then
    return (← addByte (← subByte opcode Evm.Opcode.push1) 1).toNat
  return 0

def instructionsFrom (code : List UInt8) (offset : Nat) : Checked (List Evm.Instruction) :=
  match _h : code[offset]? with
  | none => return []
  | some opcode => do
    let stop := min (offset + 1 + (← immediateLength opcode)) code.length
    let immediate ← range code (offset + 1) stop
    return ⟨offset, opcode, immediate⟩ :: (← instructionsFrom code stop)
termination_by code.length - offset
decreasing_by
  obtain ⟨hlt, _⟩ := List.getElem?_eq_some_iff.mp _h
  omega

/-- Changes the elements at some positions to one value. -/
def setAll (l : List α) (positions : List Nat) (a : α) : Checked (List α) :=
  positions.foldlM (fun l position => set l position a) l

def replaceZeroPushes (code : List UInt8) : Checked (List UInt8 × List Nat) := do
  let instructions ← instructionsFrom code 0
  let sites := ((instructions.filter (·.opcode == Evm.Opcode.push0)).map (·.offset + 1)).filter
    fun next => code[next]? == some Evm.Opcode.dup1
  return (← setAll code sites Evm.Opcode.push0, sites)

theorem immediateLength_eq (opcode : UInt8) :
    immediateLength opcode = .ok (Evm.Opcode.immediateLength opcode) := by
  unfold immediateLength Evm.Opcode.immediateLength
  split
  · rename_i hpush
    have hle := UInt8.le_iff_toNat_le.mp hpush.2
    have hsub : (opcode - Evm.Opcode.push1).toNat = opcode.toNat - 0x60 :=
      UInt8.toNat_sub_of_le _ _ hpush.1
    have hone : (1 : UInt8).toNat = 1 := rfl
    have hlast : Evm.Opcode.push32.toNat = 0x7f := rfl
    have hfirst : 0x60 ≤ opcode.toNat := UInt8.le_iff_toNat_le.mp hpush.1
    rw [subByte_eq hpush.1, ok_bind, addByte_eq (show _ < 256 by omega), ok_bind]
    refine congrArg Except.ok ?_
    rw [UInt8.toNat_add, hsub]
    omega
  · rfl

theorem instructionsFrom_eq (code : List UInt8) (offset : Nat) :
    instructionsFrom code offset = .ok (Evm.instructionsFrom offset (code.drop offset)) := by
  fun_induction instructionsFrom code offset with
  | case1 offset h =>
    rw [List.drop_eq_nil_of_le (List.getElem?_eq_none_iff.mp h), Evm.instructionsFrom_nil]
    rfl
  | case2 offset opcode h ih =>
    obtain ⟨hlt, _⟩ := List.getElem?_eq_some_iff.mp h
    let stop := min (offset + 1 + Evm.Opcode.immediateLength opcode) code.length
    have hrange : range code (offset + 1) stop =
        .ok ((code.drop (offset + 1)).take (Evm.Opcode.immediateLength opcode)) := by
      rw [range_eq (by omega) (by omega), List.drop_take]
      congr 1
      rw [List.take_eq_take_iff, List.length_drop]
      omega
    have hrest : Evm.instructionsFrom stop (code.drop stop) =
        Evm.instructionsFrom (offset + 1 + Evm.Opcode.immediateLength opcode)
          (code.drop (offset + 1 + Evm.Opcode.immediateLength opcode)) := by
      by_cases hfull : offset + 1 + Evm.Opcode.immediateLength opcode ≤ code.length
      · rw [show stop = _ from Nat.min_eq_left hfull]
      · have hnil : code.drop (offset + 1 + Evm.Opcode.immediateLength opcode) = [] :=
          List.drop_eq_nil_of_le (by omega)
        have hnil' : code.drop stop = [] := List.drop_eq_nil_of_le (by omega)
        rw [hnil, hnil', Evm.instructionsFrom_nil, Evm.instructionsFrom_nil]
    rw [immediateLength_eq, ok_bind]
    change (range code (offset + 1) stop >>= fun immediate => instructionsFrom code stop >>= _) = _
    rw [hrange, ok_bind, ih, ok_bind, hrest, Evm.instructionsFrom_drop h]
    rfl

theorem instructions_eq (code : List UInt8) :
    instructionsFrom code 0 = .ok (Evm.instructions code) := by
  rw [instructionsFrom_eq, Evm.instructions_eq, List.drop_zero]

theorem setAll_eq {l : List α} {positions : List Nat} (h : ∀ i ∈ positions, i < l.length) (a : α) :
    setAll l positions a = .ok ((positions.foldl
      (fun xs position => xs.setIfInBounds position a) l.toArray).toList) := by
  induction positions generalizing l with
  | nil => rfl
  | cons position rest ih =>
    obtain ⟨hposition, hrest⟩ := List.forall_mem_cons.mp h
    rw [setAll, List.foldlM_cons, set_eq hposition, ok_bind, List.foldl_cons,
      List.setIfInBounds_toArray]
    exact ih fun i hi => by rw [List.length_set]; exact hrest i hi

theorem replaceZeroPushes_eq (code : List UInt8) :
    replaceZeroPushes code = .ok (ZeroPush.replace code) := by
  have hsites : ∀ site ∈ ZeroPush.sites code, site < code.length := fun site hsite =>
    (List.getElem?_eq_some_iff.mp (ZeroPush.getElem?_of_mem_sites hsite)).1
  have hset := setAll_eq hsites Evm.Opcode.push0
  have hsitesEq : ZeroPush.sites code = (((Evm.instructions code).filter
      (·.opcode == Evm.Opcode.push0)).map (·.offset + 1)).filter
        fun next => code[next]? == some Evm.Opcode.dup1 := by
    simp only [ZeroPush.sites, List.getElem?_toArray]
  rw [replaceZeroPushes, instructions_eq, ok_bind]
  dsimp only
  rw [← hsitesEq, hset]
  rfl

def ofOutput (module : Module) (variant : Variant) (probes : List Probe) (output : List UInt8) :
    Checked CompiledModule := do
  let start? ← match probes.getLast? with
    | none => pure none
    | some last => codeStart? last variant output
  match start? with
  | none => report (.sentinelNotFound module.path module.sectionIndex)
  | some start =>
    let _capacity ← sub (1 + output.length) start
    let code := Evm.Opcode.jumpDest :: (← range output start output.length)
    match variant with
    | .push0 =>
      let (code, sites) ← replaceZeroPushes code
      return ⟨module, code, sites⟩
    | .legacy => return ⟨module, code, []⟩

theorem ofOutput_eq (module : Module) (variant : Variant) (probes : List Probe)
    (output : List UInt8) : ofOutput module variant probes output =
      ofExcept (CompiledModule.ofOutput module variant probes output) := by
  unfold ofOutput CompiledModule.ofOutput
  cases probes.getLast? with
  | none => rfl
  | some last =>
    obtain ⟨hstart, hle⟩ := codeStart?_eq last variant output
    dsimp only
    rw [hstart, ok_bind, Option.bind_some]
    cases hfound : last.codeStart? variant output with
    | none => rfl
    | some start =>
      have hstart := hle start hfound
      dsimp only
      rw [sub_eq (by omega), ok_bind, range_length hstart, ok_bind]
      cases variant with
      | push0 =>
        dsimp only
        rw [replaceZeroPushes_eq, ok_bind]
        rfl
      | legacy => rfl

end ImageLinker.Checked
