import ImageLinker.Proofs.Agreement

/-! A module's code is what the compiler printed behind the last occurrence of its last probe, and
nothing is cut out where that probe does not occur. -/
namespace ImageLinker

/-- The greatest offset at which a pattern occurs. -/
def LastAt (pattern code : List UInt8) (offset : Nat) : Prop :=
  pattern <+: code.drop offset ∧ ∀ k, pattern <+: code.drop k → k ≤ offset

theorem isInfix_iff_exists_drop {pattern code : List UInt8} :
    pattern <:+: code ↔ ∃ k, pattern <+: code.drop k := by
  constructor
  · rintro ⟨front, back, rfl⟩
    refine ⟨front.length, ?_⟩
    rw [List.append_assoc, List.drop_left]
    exact List.prefix_append _ _
  · rintro ⟨k, hk⟩
    exact hk.isInfix.trans (List.drop_suffix k code).isInfix

/-- A pattern that occurs has a last occurrence. -/
theorem exists_lastAt {pattern code : List UInt8} (hne : pattern ≠ []) (h : pattern <:+: code) :
    ∃ offset, LastAt pattern code offset := by
  have hbound : ∀ k, pattern <+: code.drop k → k ≤ code.length := by
    intro k hk
    have hlen := hk.length_le
    have hpos := List.length_pos_iff.mpr hne
    rw [List.length_drop] at hlen
    omega
  obtain ⟨k, hk⟩ := isInfix_iff_exists_drop.mp h
  let occurs : Nat → Prop := fun k => pattern <+: code.drop k
  refine ⟨Nat.findGreatest occurs code.length, ?_, fun j hj => ?_⟩
  · exact Nat.findGreatest_spec (P := occurs) (hbound k hk) hk
  · exact Nat.le_findGreatest (hbound j hj) hj

namespace Probe

theorem exists_of_endOfLastFrom {pattern code : List UInt8} {stop n : Nat}
    (h : endOfLastFrom pattern code stop = some n) : ∃ k, pattern <+: code.drop k := by
  induction code generalizing stop with
  | nil =>
    unfold endOfLastFrom at h
    split at h
    · next hempty =>
      rw [List.isEmpty_iff] at hempty
      exact ⟨0, hempty ▸ List.nil_prefix⟩
    · cases h
  | cons b rest ih =>
    unfold endOfLastFrom at h
    split at h
    · next hp => exact ⟨0, List.isPrefixOf_iff_prefix.mp hp⟩
    · obtain ⟨k, hk⟩ := ih h
      exact ⟨k + 1, hk⟩

theorem endOfLast?_of_not_isInfix {pattern code : List UInt8} (h : ¬ pattern <:+: code) :
    endOfLast? pattern code = none := by
  cases hend : endOfLast? pattern code with
  | none => rfl
  | some n =>
    obtain ⟨k, hk⟩ := exists_of_endOfLastFrom hend
    have hreverse := isInfix_iff_exists_drop.mpr ⟨k, hk⟩
    exact absurd (List.reverse_infix.mp hreverse) h

/-- Behind the last occurrence nothing of the pattern begins. -/
theorem onlyAtStart_of_lastAt {pattern code : List UInt8} {offset : Nat}
    (h : LastAt pattern code offset) :
    OnlyAtStart pattern (code.drop (offset + pattern.length)) ∧
      code = code.take offset ++ pattern ++ code.drop (offset + pattern.length) := by
  obtain ⟨rest, hrest⟩ := h.1
  have hback : rest = code.drop (offset + pattern.length) := by
    rw [← List.drop_drop, ← hrest, List.drop_left]
  rw [← hback]
  refine ⟨fun k hk => ?_, ?_⟩
  · rw [hrest, List.drop_drop] at hk
    have := h.2 _ hk
    omega
  · rw [List.append_assoc, hrest, List.take_append_drop]

end Probe

namespace CompiledModule

variable {module : Module} {variant : Variant} {probes : List Probe} {last : Probe}
  {output : List UInt8}

theorem ofOutput_of_lastAt (hlast : probes.getLast? = some last) {offset : Nat}
    (h : LastAt (last.encoding variant) output offset) :
    ofOutput module variant probes output =
      .ok (ofBody module variant (output.drop (offset + (last.encoding variant).length))) := by
  obtain ⟨honly, hsplit⟩ := Probe.onlyAtStart_of_lastAt h
  conv_lhs => rw [hsplit]
  exact ofOutput_append hlast honly

theorem ofOutput_of_not_isInfix (hlast : probes.getLast? = some last)
    (h : ¬ last.encoding variant <:+: output) : ofOutput module variant probes output =
      .error (.sentinelNotFound module.path module.sectionIndex) := by
  unfold ofOutput
  rw [hlast, Option.bind_some, Probe.codeStart?, Probe.endOfLast?_of_not_isInfix h]

theorem ofOutput_eq_error_iff (hlast : probes.getLast? = some last) :
    ofOutput module variant probes output =
        .error (.sentinelNotFound module.path module.sectionIndex) ↔
      ¬ last.encoding variant <:+: output := by
  refine ⟨fun h hoccurs => ?_, ofOutput_of_not_isInfix hlast⟩
  obtain ⟨offset, hoffset⟩ := exists_lastAt (last.encoding_ne_nil variant) hoccurs
  rw [ofOutput_of_lastAt hlast hoffset] at h
  cases h

end CompiledModule

section

variable {ctx : BuildContext} {compiler : Compiler} {plan : ProbePlan} {variant : Variant}
  {module : Module} {stream : ByteStream} {files : Files.Tree}

/-- A module whose probes are drawn and put in comes to what is cut out of the output for the
injected source. -/
theorem compileModule_of_output {source injected : String} {probes : List Probe} {rest : ByteStream}
    {output : List UInt8} (hread : files.readText module.path = .ok source)
    (hdraw : plan.draw module.sectionIndex stream = .ok (probes, rest))
    (hinject : Yul.inject source probes = some injected)
    (hout : (compileText ctx compiler (ctx.system.source variant module) injected
      (variant.version ctx.versions) files).1 = .ok output) :
    (compileModule ctx compiler plan variant module stream files).1 =
      (CompiledModule.ofOutput module variant probes output).mapError .error := by
  have hmodule : compileModule ctx compiler plan variant module stream files =
      compileInjected ctx compiler ⟨variant, module, stream⟩ probes injected files := by
    have hread' : (Work.readText module.path : Job String) files = (.ok source, files) := by
      rw [Work.readText, hread]
      rfl
    have hdraw' : Steps.unchecked.draw plan module.sectionIndex stream = .ok (probes, rest) :=
      congrArg (Except.mapError _) hdraw
    have hinject' : Steps.unchecked.inject source probes = .ok (some injected.toUTF8.toList) := by
      dsimp only [Steps.unchecked]
      rw [hinject]
      rfl
    unfold compileModule Steps.compileModule
    rw [Work.bind_apply, hread']
    dsimp only
    rw [hdraw', Work.ofResult_ok_bind]
    dsimp only
    rw [hinject', Work.ofResult_ok_bind]
    rfl
  rw [hmodule, compileInjected, Work.bind_apply]
  dsimp only
  cases hrun : compileText ctx compiler (ctx.system.source variant module) injected
      (variant.version ctx.versions) files with
  | mk result left =>
    rw [hrun] at hout
    cases hout
    rfl

/-- Whatever the random bytes are, a module with a runtime header compiles to the body behind the
last occurrence of its last probe, and fails to exactly when the compiler's output has none. -/
theorem compileModule_extracts {modules i : Nat} {source : String} (hi : i < modules)
    (hsection : module.sectionIndex = i + 1) (hread : files.readText module.path = .ok source)
    (hheader : (Yul.findRuntimeBlock source).isSome) :
    ∃ probes rest last injected,
      (ProbePlan.make ctx.layout modules).draw (i + 1) stream = .ok (probes, rest) ∧
      probes.getLast? = some last ∧ Yul.inject source probes = some injected ∧
      ∀ output, (compileText ctx compiler (ctx.system.source variant module) injected
          (variant.version ctx.versions) files).1 = .ok output →
        let compiled := (compileModule ctx compiler (.make ctx.layout modules) variant module stream
          files).1
        (∀ pre body, output = pre ++ last.encoding variant ++ body →
          OnlyAtStart (last.encoding variant) body → compiled = .ok (.ofBody module variant body)) ∧
        (compiled = .error (.error (.sentinelNotFound module.path (i + 1))) ↔
          ¬ last.encoding variant <:+: output) ∧
        (last.encoding variant <:+: output → ∃ offset,
          LastAt (last.encoding variant) output offset ∧ compiled = .ok (.ofBody module variant
            (output.drop (offset + (last.encoding variant).length)))) := by
  obtain ⟨probes, rest, hdraw, hlen⟩ : ∃ probes rest,
      (ProbePlan.make ctx.layout modules).draw (i + 1) stream = .ok (probes, rest) ∧
        probes.length = ctx.layout.probesPerModule * (i + 1) := ProbePlan.exists_draw hi stream
  have hne : probes ≠ [] := by
    rw [← List.length_pos_iff, hlen]
    exact Nat.mul_pos ctx.layout.probesPerModule_pos (Nat.succ_pos i)
  have hlast := List.getLast?_eq_some_getLast hne
  obtain ⟨block, hblock⟩ := Option.isSome_iff_exists.mp hheader
  obtain ⟨injected, hinject⟩ : ∃ injected, Yul.inject source probes = some injected := by
    rw [Yul.inject, hblock]
    exact ⟨_, rfl⟩
  refine ⟨probes, rest, probes.getLast hne, injected, hdraw, hlast, hinject, fun output hout => ?_⟩
  rw [← hsection] at hdraw ⊢
  rw [compileModule_of_output hread hdraw hinject hout]
  refine ⟨?_, ?_, ?_⟩
  · rintro pre body rfl honly
    rw [CompiledModule.ofOutput_append hlast honly]
    rfl
  · rw [← CompiledModule.ofOutput_eq_error_iff hlast]
    cases CompiledModule.ofOutput module variant probes output <;> simp [Except.mapError]
  · intro hoccurs
    obtain ⟨offset, hoffset⟩ := exists_lastAt (Probe.encoding_ne_nil _ variant) hoccurs
    refine ⟨offset, hoffset, ?_⟩
    rw [CompiledModule.ofOutput_of_lastAt hlast hoffset]
    rfl

end

namespace Sample

def filling (width : Nat) (h : 1 ≤ width ∧ width ≤ 32) : Probe :=
  ⟨0xff, ⟨List.replicate width 0xa5, by simpa using h.1, by simpa using h.2⟩⟩

theorem draw_filling : (ProbePlan.make context.layout 3).draw 3 {} = .ok
    ([filling 29 (by decide), filling 28 (by decide), filling 28 (by decide)], ⟨[], 85⟩) := by cbv

theorem readText_files :
    files.readText modulePath = .ok "object \"runtime\" \x7b code \x7b \x7d \x7d" :=
  Files.Tree.textOfBytes_toUTF8 _

theorem compileText_printing {text : String} {output : List UInt8}
    (h : ∀ path, Compiler.bytesOfText "sample" path text = .ok output) (injected version : String) :
    (compileText context (printing text) (.numbered 1) injected version files).1 = .ok output := by
  have hopens : context.opens (.numbered 1) files := by decide +kernel
  rw [BuildContext.opens, files.isSome_temporary? _ _ _ [] injected.toUTF8.toList] at hopens
  obtain ⟨⟨path, place, made⟩, htemporary⟩ := Option.isSome_iff_exists.mp hopens
  rw [compileText, Steps.compileSource, Work.withSource_of_some htemporary]
  change (Compiler.compileToBytes (printing text) path version made).1 = _
  rw [Compiler.compileToBytes_of_compile rfl]
  change (Compiler.bytesOfText "sample" path text).mapError _ = _
  rw [h]
  rfl

/-- The last probe, `STOP`, the last probe once more, and a pair of zero pushes. -/
def repeating : List UInt8 := (filling 28 (by decide)).encoding .push0 ++ [0x00] ++
  (filling 28 (by decide)).encoding .push0 ++ [0x5f, 0x80, 0x00]

theorem bytesOfText_repeating (path : String) :
    Compiler.bytesOfText "sample" path (Hex.encode repeating) = .ok repeating :=
  Compiler.bytesOfText_encode _ _ (List.append_ne_nil_of_right_ne_nil _ nofun)

theorem onlyAtStart_filling : OnlyAtStart ((filling 28 (by decide)).encoding .push0)
    [0x5f, 0x80, 0x00] := by
  intro k hk
  have hlen := hk.length_le
  have henc : ((filling 28 (by decide)).encoding .push0).length = 32 := by rfl
  simp only [List.length_drop, List.length_append, henc] at hlen
  have hk : k = 0 ∨ k = 1 ∨ k = 2 ∨ k = 3 := by simp at hlen; omega
  rcases hk with rfl | rfl | rfl | rfl
  · rfl
  all_goals exact absurd hk (by decide)

end Sample

open Sample in
/-- Equal sentinels, and an earlier copy of the last probe in what stands in front of it. -/
theorem compileModule_extracts_repeating :
    (compileModule context (printing (Hex.encode repeating)) (.make context.layout 3) .push0
      ⟨modulePath, 3⟩ {} files).1 = .ok ⟨⟨modulePath, 3⟩, [0x5b, 0x5f, 0x5f, 0x00], [2]⟩ := by
  obtain ⟨probes, rest, last, injected, hdraw, hlast, _, hall⟩ :=
    @compileModule_extracts context (printing (Hex.encode repeating)) .push0 ⟨modulePath, 3⟩ {}
      files 3 2 _ (by decide) rfl readText_files (by decide +kernel)
  rw [draw_filling] at hdraw
  cases hdraw
  cases hlast
  rw [(hall _ (compileText_printing bytesOfText_repeating injected _)).1 _ _ rfl
    onlyAtStart_filling]
  cbv

end ImageLinker
