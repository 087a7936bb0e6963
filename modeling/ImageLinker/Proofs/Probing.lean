import ImageLinker.Build

/-! Drawing the probes of a section never fails, and a module's code is what follows the last of
them in compiler output. -/
namespace ImageLinker

theorem Sentinel.exists_draw {width : Nat} (h : 1 ≤ width ∧ width ≤ 32) (s : ByteStream) :
    ∃ sentinel rest, draw width s = .ok (sentinel, rest) := by
  unfold draw
  rw [dif_pos h]
  exact ⟨_, _, rfl⟩

namespace ProbePlan

theorem sentinelWidth_mem (k : Nat) : 1 ≤ sentinelWidth k ∧ sentinelWidth k ≤ 32 := by
  unfold sentinelWidth
  split <;> omega

theorem exists_drawFrom (plan : ProbePlan) (done : Array Probe) (k count : Nat)
    (stream : ByteStream) : ∃ probes rest, plan.drawFrom done k count stream = .ok (probes, rest) ∧
      probes.length = done.size + count := by
  induction count generalizing done k stream with
  | zero => exact ⟨_, _, rfl, rfl⟩
  | succ count ih =>
    obtain ⟨sentinel, stream', hdraw⟩ := Sentinel.exists_draw (sentinelWidth_mem k) stream
    obtain ⟨probes, rest, hfrom, hlen⟩ :=
      ih (done.push ⟨plan.offsetAt k, sentinel⟩) (k + 1) stream'
    refine ⟨probes, rest, ?_, ?_⟩
    · rw [drawFrom, hdraw]
      exact hfrom
    · rw [hlen, Array.size_push]
      omega

theorem probesFor_make {layout : Layout} {modules i : Nat} (h : i < modules) :
    (make layout modules).probesFor (i + 1) = .ok (layout.probesPerModule * (i + 1)) := by
  simp [probesFor, make, h]

/-- Every section of a plan gets its probes, whatever the random bytes are. -/
theorem exists_draw {layout : Layout} {modules i : Nat} (h : i < modules) (stream : ByteStream) :
    ∃ probes rest, (make layout modules).draw (i + 1) stream = .ok (probes, rest) ∧
      probes.length = layout.probesPerModule * (i + 1) := by
  obtain ⟨probes, rest, hdraw, hlen⟩ := (make layout modules).exists_drawFrom #[] 0
    (layout.probesPerModule * (i + 1)) stream
  refine ⟨probes, rest, ?_, by rw [hlen, Array.size_empty, Nat.zero_add]⟩
  rw [draw, probesFor_make h]
  exact hdraw

end ProbePlan

theorem Layout.probesPerModule_pos (layout : Layout) : 0 < layout.probesPerModule := by
  unfold probesPerModule capacity
  have h : 2 ^ 5 ≤ 2 ^ layout.shift := Nat.pow_le_pow_right (by decide) layout.shift_ge
  exact Nat.div_pos h (by decide)

/-- A text that begins with a pattern and goes on with a rest holds the pattern nowhere else. -/
def OnlyAtStart (pattern rest : List UInt8) : Prop :=
  ∀ k, pattern <+: (pattern ++ rest).drop k → k = 0

namespace Probe

theorem encoding_ne_nil (p : Probe) (variant : Variant) : p.encoding variant ≠ [] :=
  List.append_ne_nil_of_right_ne_nil _ (List.cons_ne_nil _ _)

theorem endOfLastFrom_append {pattern l l' : List UInt8} {stop : Nat} (hne : pattern ≠ [])
    (hnot : ∀ i < l.length, ¬ pattern <+: (l ++ l').drop i) (hp : pattern <+: l') :
    endOfLastFrom pattern (l ++ l') stop = some (stop - l.length) := by
  induction l generalizing stop with
  | nil =>
    cases l' with
    | nil => exact absurd (List.prefix_nil.mp hp) hne
    | cons b rest => exact if_pos (List.isPrefixOf_iff_prefix.mpr hp)
  | cons b l ih =>
    have hb : ¬ pattern.isPrefixOf (b :: (l ++ l')) = true := fun h =>
      hnot 0 (Nat.succ_pos _) (List.isPrefixOf_iff_prefix.mp h)
    have hrest : ∀ i < l.length, ¬ pattern <+: (l ++ l').drop i := fun i hi =>
      hnot (i + 1) (Nat.succ_lt_succ hi)
    rw [List.cons_append, endOfLastFrom, if_neg hb, ih hrest, List.length_cons]
    congr 1
    omega

/-- The last occurrence of a pattern is in front of a rest in which it does not begin again. -/
theorem endOfLast?_append {pattern rest : List UInt8} (hne : pattern ≠ [])
    (h : OnlyAtStart pattern rest) (pre : List UInt8) :
    endOfLast? pattern (pre ++ pattern ++ rest) = some (pre.length + pattern.length) := by
  unfold endOfLast?
  rw [List.reverse_append, List.reverse_append, endOfLastFrom_append]
  · simp only [List.length_append, List.length_reverse]
    congr 1
    omega
  · exact fun h => hne (List.reverse_eq_nil_iff.mp h)
  · intro i hi hp
    rw [List.length_reverse] at hi
    -- an occurrence that ends inside the rest begins behind the start
    rw [List.drop_append_of_le_length (by rw [List.length_reverse]; omega), List.drop_reverse,
      ← List.reverse_append, ← List.reverse_append, List.reverse_prefix, List.append_assoc] at hp
    have hsuffix : pattern <:+ pattern ++ rest.take (rest.length - i) :=
      List.suffix_of_suffix_length_le hp (List.suffix_append _ _) (by simp)
    obtain ⟨x, hx⟩ := hsuffix
    have hxlen := congrArg List.length hx
    simp only [List.length_append, List.length_take] at hxlen
    have hsplit : pattern ++ rest = x ++ (pattern ++ rest.drop (rest.length - i)) := by
      rw [← List.append_assoc, hx, List.append_assoc, List.take_append_drop]
    have hx0 : x.length = 0 := by
      refine h x.length ?_
      rw [hsplit, List.drop_left]
      exact List.prefix_append _ _
    omega
  · exact List.prefix_append _ _

end Probe

/-- The compiled module of a body: a jump destination and the body behind it, with the zero pushes
of the target. -/
def CompiledModule.ofBody (module : Module) (variant : Variant) (body : List UInt8) :
    CompiledModule :=
  let code := Evm.Opcode.jumpDest :: body
  match variant with
  | .push0 => ⟨module, (ZeroPush.replace code).1, (ZeroPush.replace code).2⟩
  | .legacy => ⟨module, code, []⟩

/-- What stands in front of the last probe does not count. -/
theorem CompiledModule.ofOutput_append {module : Module} {variant : Variant} {probes : List Probe}
    {last : Probe} {pre body : List UInt8} (hlast : probes.getLast? = some last)
    (h : OnlyAtStart (last.encoding variant) body) :
    ofOutput module variant probes (pre ++ last.encoding variant ++ body) =
      .ok (ofBody module variant body) := by
  have hstart := Probe.endOfLast?_append (last.encoding_ne_nil variant) h pre
  unfold ofOutput
  rw [hlast, Option.bind_some, Probe.codeStart?, hstart]
  dsimp only
  rw [← List.length_append, List.drop_left]
  cases variant <;> rfl

end ImageLinker
