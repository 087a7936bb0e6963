import ImageLinker.Manifest
import ImageLinker.Proofs.Agreement
import ImageLinker.Proofs.Checks.Images
import ImageLinker.Proofs.Checks.Sources

/-!
The checked build. A build of a manifest that has passed its own check ends with artifacts or with
an error of the build, the checked build ends in the same way, and no check fails.
-/
namespace ImageLinker

namespace Checked

variable {α β : Type}

instance : Coe LinkError Stop := ⟨.error⟩

def buildSteps : Steps Stop where
  plan := plan
  probesFor := probesFor
  draw := draw
  inject := inject
  bytesOfText := bytesOfText
  ofOutput := ofOutput
  assemble := assemble
  conditional := conditional
  strayImages _ := .breach .unreachable

def build (ctx : BuildContext) (compiler : Compiler) (mode : Mode) (template : String)
    (modules : List Module) (streams : Streams) : Work Stop Artifacts :=
  buildSteps.build ctx compiler mode template modules streams

/-- On all files checked work does what other work does, which is no misuse, and what it returns has
a property: no check fails. -/
def Mirrors (x : Work Stop α) (y : Job α) (Q : α → Prop) : Prop :=
  ∀ files, ∃ (r : Except LinkError α) (files' : Files.Tree),
    x files = (ofExcept r, files') ∧ y files = (r.mapError .error, files') ∧ ∀ a, r = .ok a → Q a

namespace Mirrors

variable {x : Work Stop α} {y : Job α} {Q : α → Prop} {R : β → Prop}

theorem ofResult {z : Checked α} {r : Except Failure α} (h : Matches z r)
    (hQ : ∀ a, r = .ok a → Q a) : Mirrors (Work.ofResult z) (Work.ofResult r) Q := by
  intro files
  obtain ⟨result, rfl, rfl⟩ := h
  refine ⟨result, files, rfl, rfl, fun a ha => hQ a ?_⟩
  rw [ha]
  rfl

theorem pure {a : α} (h : Q a) : Mirrors (Pure.pure a) (Pure.pure a) Q := fun files =>
  ⟨.ok a, files, rfl, rfl, fun b hb => by cases hb; exact h⟩

theorem fail (e : LinkError) : Mirrors (Work.fail e) (Work.fail e) Q := fun files =>
  ⟨.error e, files, rfl, rfl, nofun⟩

theorem ofExcept {r : Except LinkError α} (hQ : ∀ a, r = .ok a → Q a) :
    Mirrors (Work.ofExcept r) (Work.ofExcept r) Q := fun files => ⟨r, files, rfl, rfl, hQ⟩

theorem bind (hx : Mirrors x y Q) {f : α → Work Stop β} {g : α → Job β}
    (hf : ∀ a, Q a → Mirrors (f a) (g a) R) : Mirrors (x >>= f) (y >>= g) R := by
  intro files
  obtain ⟨r, middle, hxr, hyr, hQ⟩ := hx files
  rw [Work.bind_apply, Work.bind_apply, hxr, hyr]
  cases r with
  | error e => exact ⟨.error e, middle, rfl, rfl, nofun⟩
  | ok a => exact hf a (hQ a rfl) middle

theorem readText (path : String) :
    Mirrors (Work.readText path) (Work.readText path) fun _ => True := by
  intro files
  refine ⟨(files.readText path).mapError fun fault => .io (.read path) fault, files, ?_, ?_,
    fun _ _ => trivial⟩
  all_goals
    unfold Work.readText
    cases files.readText path <;> rfl

theorem withSource {dir : String} {attempt : Files.Attempt} {source : List UInt8}
    {work : String → Work Stop α} {work' : String → Job α}
    (h : ∀ path, Mirrors (work path) (work' path) Q) :
    Mirrors (Work.withSource dir attempt source work) (Work.withSource dir attempt source work')
      Q := by
  intro files
  cases htemporary : files.temporary? dir "tmp" ".yul" source attempt with
  | none =>
    obtain ⟨step, fault, -, hall⟩ := Work.exists_withSource_of_none htemporary
    exact ⟨.error (.io step fault), files, hall work, hall work', nofun⟩
  | some opened =>
    obtain ⟨path, place, middle⟩ := opened
    obtain ⟨r, files', hx, hy, hQ⟩ := h path middle
    refine ⟨r, files'.erase place, ?_, ?_, hQ⟩
    · rw [Work.withSource_of_some htemporary, hx]
    · rw [Work.withSource_of_some htemporary, hy]

theorem both {x' : Work Stop β} {y' : Job β} (hx : Mirrors x y Q) (hx' : Mirrors x' y' R) :
    Mirrors (Work.both x x') (Work.both y y') fun _ => True := by
  intro files
  obtain ⟨r, middle, hxr, hyr, -⟩ := hx files
  obtain ⟨r', files', hxr', hyr', -⟩ := hx' middle
  refine ⟨r.bind fun a => r'.map fun b => (a, b), files', ?_, ?_, fun _ _ => trivial⟩
  · simp only [Work.both, hxr, hxr']
    cases r <;> cases r' <;> rfl
  · simp only [Work.both, hyr, hyr']
    cases r <;> cases r' <;> rfl

theorem mapM {γ : Type} {l : List γ} {f : γ → Work Stop β} {g : γ → Job β} {S : γ → β → Prop}
    (h : ∀ c ∈ l, Mirrors (f c) (g c) (S c)) :
    Mirrors (l.mapM f) (l.mapM g) (List.Forall₂ S l) := by
  induction l with
  | nil => exact pure .nil
  | cons c rest ih =>
    obtain ⟨hc, hrest⟩ := List.forall_mem_cons.mp h
    rw [List.mapM_cons, List.mapM_cons]
    exact hc.bind fun b hb => (ih hrest).bind fun bs hbs => pure (.cons hb hbs)

end Mirrors

/-- A text that a compiler prints is in memory, where no text has `2 ^ 63` bytes. -/
def PrintsTexts (compiler : Compiler) : Prop := ∀ ⦃path version : String⦄ ⦃files : Files.Tree⦄
  ⦃text : String⦄, (compiler.compile path version files).1 = .ok text → text.utf8ByteSize < 2 ^ 63

variable {ctx : BuildContext} {compiler : Compiler} {variant : Variant} {paths : List String}
  {mode : Mode} {template : String} {streams : Streams}

theorem compileSource_mirrors (hprints : PrintsTexts compiler) (attempt : Files.Attempt)
    (source : List UInt8) (version : String) :
    Mirrors (buildSteps.compileSource ctx compiler attempt source version)
      (Steps.unchecked.compileSource ctx compiler attempt source version)
      fun bytes => bytes.length < 2 ^ 63 := by
  refine Mirrors.withSource fun path => ?_
  have hcompile : Mirrors (fun files => ((compiler.compile path version files).1.mapError
      Stop.error, (compiler.compile path version files).2))
      (fun files => ((compiler.compile path version files).1.mapError Failure.error,
        (compiler.compile path version files).2)) (fun text => text.utf8ByteSize < 2 ^ 63) :=
    fun files => ⟨_, _, rfl, rfl, fun _ htext => hprints htext⟩
  refine hcompile.bind fun text htext => ?_
  have hmatches : Matches (bytesOfText compiler.name path text)
      ((Compiler.bytesOfText compiler.name path text).mapError .error) :=
    ⟨_, bytesOfText_eq .., rfl⟩
  refine .ofResult hmatches fun bytes hbytes => ?_
  exact Nat.lt_of_le_of_lt (length_bytesOfText_le (mapError_eq_ok_iff.mp hbytes)) htext

/-- What was replaced in code that was cut out of an output is within it. -/
theorem le_of_mem_substitutions {module : Module} {variant : Variant} {probes : List Probe}
    {output : List UInt8} {compiled : CompiledModule}
    (h : CompiledModule.ofOutput module variant probes output = .ok compiled) :
    ∀ offset ∈ compiled.substitutions, offset ≤ output.length := by
  unfold CompiledModule.ofOutput at h
  split at h
  · cases h
  · rename_i start _
    cases variant with
    | legacy =>
      cases h
      exact nofun
    | push0 =>
      cases h
      intro offset hoffset
      have hlt := (List.getElem?_eq_some_iff.mp (ZeroPush.getElem?_of_mem_sites hoffset)).1
      rw [List.length_cons, List.length_drop] at hlt
      omega

/-- Compiled from a module, with replaced bytes at offsets that are far from the greatest number. -/
def CompiledFrom (module : Module) (compiled : CompiledModule) : Prop :=
  compiled.module = module ∧ ∀ offset ∈ compiled.substitutions, offset < 2 ^ 63

theorem compileModule_mirrors (hprints : PrintsTexts compiler) {module : Module}
    (hmodule : module ∈ Module.ofPaths paths) (stream : ByteStream) :
    Mirrors
      (buildSteps.compileModule ctx compiler (.make ctx.layout (Module.ofPaths paths).length)
        variant module stream)
      (Steps.unchecked.compileModule ctx compiler (.make ctx.layout (Module.ofPaths paths).length)
        variant module stream) (CompiledFrom module) := by
  obtain ⟨i, hi, hsection⟩ := Module.exists_of_mem_ofPaths hmodule
  obtain ⟨probes, rest, hdraw, hdraw'⟩ := draw_eq ctx.layout hi stream
  unfold Steps.compileModule
  refine (Mirrors.readText module.path).bind fun source _ => ?_
  have hdrawn : Mirrors
      (Work.ofResult (buildSteps.draw (.make ctx.layout (Module.ofPaths paths).length)
        module.sectionIndex stream))
      (Work.ofResult (Steps.unchecked.draw (.make ctx.layout (Module.ofPaths paths).length)
        module.sectionIndex stream)) (· = (probes, rest)) := by
    dsimp only [buildSteps, Steps.unchecked]
    rw [hsection, hdraw, hdraw']
    exact .pure rfl
  refine hdrawn.bind fun drawn hdrawn => ?_
  subst hdrawn
  have hinject : buildSteps.inject source probes =
      .ok ((Yul.inject source probes).map fun text => text.toUTF8.toList) := inject_eq ..
  have hinject' : Steps.unchecked.inject source probes =
      .ok ((Yul.inject source probes).map fun text => text.toUTF8.toList) := rfl
  dsimp only
  rw [hinject, hinject', Work.ofResult_ok_bind, Work.ofResult_ok_bind]
  cases Yul.inject source probes with
  | none => exact .fail _
  | some injected =>
    refine (compileSource_mirrors hprints _ _ _).bind fun output houtput => ?_
    have hmatches : Matches (ofOutput module variant probes output)
        ((CompiledModule.ofOutput module variant probes output).mapError .error) :=
      ⟨_, ofOutput_eq .., rfl⟩
    refine .ofResult hmatches fun compiled hcompiled => ?_
    replace hcompiled := mapError_eq_ok_iff.mp hcompiled
    refine ⟨CompiledModule.module_ofOutput hcompiled, fun offset hoffset => ?_⟩
    exact Nat.lt_of_le_of_lt (le_of_mem_substitutions hcompiled offset hoffset) houtput

/-- Modules that are compiled from the first ones of a list are in the order of their sections. -/
theorem numbered_of_compiledFrom {ss : List ByteStream} {compiled : List CompiledModule}
    (h : List.Forall₂ (fun pair => CompiledFrom pair.1) ((Module.ofPaths paths).zip ss) compiled) :
    Numbered compiled ∧ compiled.length ≤ paths.length := by
  have hlen := h.length_eq
  rw [List.length_zip, Module.ofPaths, List.length_map, List.length_zipIdx] at hlen
  refine ⟨List.ext_getElem (by simp) fun k hk hk' => ?_, by omega⟩
  rw [List.length_map] at hk
  have hfrom := (h.get (by rw [h.length_eq]; exact hk) hk).1
  simp only [List.get_eq_getElem, List.getElem_zip] at hfrom
  rw [List.getElem_map, hfrom, List.getElem_range']
  simp [Module.ofPaths]

theorem buildImage_mirrors (hprints : PrintsTexts compiler)
    (hlen : paths.length < Layout.maxSections) (ss : List ByteStream) :
    Mirrors
      (buildSteps.buildImage ctx compiler (.make ctx.layout (Module.ofPaths paths).length) variant
        (Module.ofPaths paths) ss)
      (Steps.unchecked.buildImage ctx compiler (.make ctx.layout (Module.ofPaths paths).length)
        variant (Module.ofPaths paths) ss) fun _ => True := by
  refine (Mirrors.mapM (S := fun pair => CompiledFrom pair.1) fun pair hpair =>
    compileModule_mirrors hprints (List.of_mem_zip hpair).1 pair.2).bind fun compiled hfrom => ?_
  obtain ⟨hnum, hle⟩ := numbered_of_compiledFrom hfrom
  refine .ofResult (assemble_matches hnum (by omega) fun c hc => ?_) fun _ _ => trivial
  obtain ⟨k, hk, rfl⟩ := List.getElem_of_mem hc
  have hk' : k < ((Module.ofPaths paths).zip ss).length := by rw [hfrom.length_eq]; exact hk
  rw [hnum.sectionIndex hk]
  exact .of_lt (by omega) (hfrom.get hk' hk).2

theorem images_mirrors (hprints : PrintsTexts compiler)
    (hlen : paths.length < Layout.maxSections) : Mirrors
      (buildSteps.images ctx compiler (.make ctx.layout (Module.ofPaths paths).length)
        (Module.ofPaths paths) streams mode)
      (Steps.unchecked.images ctx compiler (.make ctx.layout (Module.ofPaths paths).length)
        (Module.ofPaths paths) streams mode) fun images => images.length ∈ [1, 2] := by
  cases mode with
  | single => exact (buildImage_mirrors hprints hlen _).bind fun image _ => .pure (by simp)
  | dual =>
    refine ((buildImage_mirrors hprints hlen _).both (buildImage_mirrors hprints hlen _)).bind
      fun images _ => .pure (by simp)

theorem buildConditional_mirrors (hprints : PrintsTexts compiler) (push0 legacy : Image) :
    Mirrors (buildSteps.buildConditional ctx compiler template push0 legacy)
      (Steps.unchecked.buildConditional ctx compiler template push0 legacy) fun _ => True := by
  unfold Steps.buildConditional
  by_cases hlen : push0.length ≠ legacy.length
  · rw [if_pos hlen, if_pos hlen]
    exact .fail _
  rw [if_neg hlen, if_neg hlen]
  refine (compileSource_mirrors hprints _ _ _).bind fun compiled _ => ?_
  exact .ofResult ⟨_, conditional_eq .., rfl⟩ fun _ _ => trivial

/-- No mode has a number of images other than one and two. -/
theorem deploy_mirrors (hprints : PrintsTexts compiler) {images : List Image}
    (himages : images.length ∈ [1, 2]) : Mirrors
      (buildSteps.deploy ctx compiler mode template images)
      (Steps.unchecked.deploy ctx compiler mode template images) fun _ => True := by
  match images with
  | [] => simp at himages
  | [image] =>
    exact (Mirrors.ofExcept (Q := fun _ => True) fun _ _ => trivial).bind
      fun initcode _ => .pure trivial
  | [push0, legacy] =>
    refine (Mirrors.ofExcept (Q := fun _ => True) fun _ _ => trivial).bind fun differing _ => ?_
    exact (buildConditional_mirrors hprints push0 legacy).bind fun initcode _ => .pure trivial
  | _ :: _ :: _ :: _ => simp at himages

theorem build_mirrors (hprints : PrintsTexts compiler) (hlen : paths.length < Layout.maxSections) :
    Mirrors (build ctx compiler mode template (Module.ofPaths paths) streams)
      (ImageLinker.build ctx compiler mode template (Module.ofPaths paths) streams)
        fun _ => True := by
  have hcount : (Module.ofPaths paths).length = paths.length := by
    rw [Module.ofPaths, List.length_map, List.length_zipIdx]
  unfold build ImageLinker.build Steps.build
  rw [buildFrom_unchecked]
  unfold Steps.buildFrom
  by_cases hempty : (Module.ofPaths paths).isEmpty
  · rw [if_pos hempty, if_pos hempty]
    exact .fail _
  obtain ⟨i, hi⟩ : ∃ i, (Module.ofPaths paths).length = i + 1 :=
    Nat.exists_eq_add_one.mpr (List.length_pos_iff.mpr (mt List.isEmpty_iff.mpr hempty))
  have hplan : buildSteps.plan ctx.layout (Module.ofPaths paths).length =
      .ok (.make ctx.layout (Module.ofPaths paths).length) := plan_eq ctx.layout (hcount ▸ hlen)
  have hprobes : buildSteps.probesFor (.make ctx.layout (Module.ofPaths paths).length)
      (Module.ofPaths paths).length = .ok (ctx.layout.probesPerModule * (i + 1)) := by
    rw [hi]
    exact probesFor_make ctx.layout (Nat.lt_succ_self i)
  rw [if_neg hempty, if_neg hempty, hplan, Work.ofResult_ok_bind, hprobes, Work.ofResult_ok_bind]
  cases ctx.threadFault? with
  | some fault => exact .fail fault
  | none => exact (images_mirrors hprints hlen).bind fun images => deploy_mirrors hprints

end Checked

theorem Manifest.exists_layout_of_validate {m : Manifest} (h : m.validate = .ok ()) :
    ∃ layout, m.layout = .ok layout ∧ m.modules.length < Layout.maxSections := by
  unfold validate at h
  cases hlayout : m.layout with
  | error e =>
    rw [hlayout] at h
    cases h
  | ok layout =>
    rw [hlayout] at h
    change (if m.modules.isEmpty then _ else _) = _ at h
    split at h
    · cases h
    · change (if m.modules.length ≥ Layout.maxSections then _ else _) = _ at h
      split at h
      · cases h
      · rename_i hlen
        exact ⟨layout, rfl, Nat.lt_of_not_le hlen⟩

/-- A build of a manifest that passes its check ends with artifacts or with an error of the build,
whatever the files, the random bytes and the compiler's answers are. The build that checks whatever
is not defined for all values ends in the same way, so no check fails, and the modules of the
manifest are never too many for an image. -/
theorem build_passes_checks {m : Manifest} {compiler : Compiler} (hvalid : m.validate = .ok ())
    (hprints : Checked.PrintsTexts compiler) : ∃ layout, m.layout = .ok layout ∧
      (∀ (dir template : String) (system : System) (streams : Streams) (files : Files.Tree),
        ∃ (r : Except LinkError Artifacts) (files' : Files.Tree),
          build ⟨layout, m.versions, dir, m.jobs, system⟩ compiler m.mode template
            (Module.ofPaths m.modules) streams files = (r.mapError .error, files') ∧
          Checked.build ⟨layout, m.versions, dir, m.jobs, system⟩ compiler m.mode template
            (Module.ofPaths m.modules) streams files = (r.mapError .error, files')) ∧
      ∀ (variant : Variant) (compiled : List CompiledModule) (fault : Misconfiguration),
        compiled.length ≤ m.modules.length →
          Image.assemble layout variant compiled ≠ .error (.error (.config fault)) := by
  obtain ⟨layout, hlayout, hlen⟩ := m.exists_layout_of_validate hvalid
  refine ⟨layout, hlayout, fun dir template system streams files => ?_,
    fun variant compiled fault hle hconfig => ?_⟩
  · obtain ⟨r, files', hchecked, hbuild, -⟩ := Checked.build_mirrors hprints hlen files
    exact ⟨r, files', hbuild, hchecked⟩
  · exact absurd (Image.assemble_eq_config_iff.mp hconfig).1 (by omega)

open Sample in
theorem build_passes_checks_sample : ∃ a files',
    Checked.build context (printing output) .dual "" (Module.ofPaths [modulePath])
      ⟨[onesStream], [onesStream]⟩ files = (.ok a, files') ∧
    ∀ variant compiled fault, compiled.length ≤ 1 →
      Image.assemble context.layout variant compiled ≠ .error (.error (.config fault)) := by
  let m : Manifest := { modules := [modulePath], sectionShift := 5 }
  have hprints : Checked.PrintsTexts (printing output) := by
    rintro _ _ _ _ ⟨⟩
    decide
  obtain ⟨layout, hlayout, hbuild, hconfig⟩ :=
    build_passes_checks (m := m) rfl hprints
  obtain rfl : context.layout = layout := Except.ok.inj hlayout
  obtain ⟨r, files', hmodel, hchecked⟩ := hbuild "/" "" context.system
    ⟨[onesStream], [onesStream]⟩ files
  have hok : (build context (printing output) .dual "" (Module.ofPaths [modulePath])
      ⟨[onesStream], [onesStream]⟩ files).1.toOption.isSome = true := by decide +kernel
  cases r with
  | error e =>
    rw [show build context _ _ _ _ _ _ = _ from hmodel] at hok
    cases hok
  | ok a => exact ⟨a, files', hchecked, hconfig⟩

end ImageLinker
