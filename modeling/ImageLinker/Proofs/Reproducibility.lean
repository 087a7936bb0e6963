import Mathlib
import ImageLinker.Proofs.Hexadecimal
import ImageLinker.Proofs.Schedule

/-!
A build returns the same artifacts whatever the random bytes of its probes are and whatever order
its modules are compiled in. What each piece of work of a build comes to is told ahead of it, for
all states of the files that compilations may leave behind.
-/
namespace ImageLinker

namespace Work

variable {ε α β : Type} {S : Files.Tree → Prop}

/-- From every state of the files in a class, work comes to one outcome and stays in the class. -/
def Yields (S : Files.Tree → Prop) (x : Work ε α) (outcome : Option α) : Prop :=
  ∀ files, S files → (x files).1.toOption = outcome ∧ S (x files).2

namespace Yields

theorem ofResult (result : Except ε α) : Yields S (Work.ofResult result) result.toOption :=
  fun _ hfiles => ⟨rfl, hfiles⟩

theorem pure (a : α) : Yields S (Pure.pure a : Work ε α) (some a) := fun _ hfiles => ⟨rfl, hfiles⟩

theorem ofResult_mapError {δ : Type} (result : Except δ α) (f : δ → ε) :
    Yields S (Work.ofResult (result.mapError f)) result.toOption := by
  intro files hfiles
  cases result <;> exact ⟨rfl, hfiles⟩

theorem fail [Coe LinkError ε] (e : LinkError) : Yields S (Work.fail e : Work ε α) none :=
  fun _ hfiles => ⟨rfl, hfiles⟩

theorem readText [Coe LinkError ε] {path : String} {outcome : Option String}
    (h : ∀ files, S files → (files.readText path).toOption = outcome) :
    Yields S (Work.readText path : Work ε String) outcome := by
  intro files hfiles
  rw [← h files hfiles]
  unfold Work.readText
  cases files.readText path <;> exact ⟨rfl, hfiles⟩

theorem bind {x : Work ε α} {f : α → Work ε β} {outcome : Option α} {g : α → Option β}
    (hx : Yields S x outcome) (hf : ∀ a, outcome = some a → Yields S (f a) (g a)) :
    Yields S (x >>= f) (outcome.bind g) := by
  intro files hfiles
  obtain ⟨rfl, hlast⟩ := hx files hfiles
  rw [Work.bind_apply]
  cases hrun : x files with
  | mk result last =>
    rw [hrun] at hf hlast
    cases result with
    | error e => exact ⟨rfl, hlast⟩
    | ok a => exact hf a rfl last hlast

end Yields

end Work

def compileText (ctx : BuildContext) (compiler : Compiler) (attempt : Files.Attempt)
    (text version : String) : Job (List UInt8) :=
  Steps.unchecked.compileSource ctx compiler attempt text.toUTF8.toList version

def System.Meets (system : System) (attempt : Files.Attempt) : Prop :=
  (∃ variant module, attempt = system.source variant module) ∨ attempt = system.shim

/-- Whether a source for the compiler finds a file to be in. -/
def BuildContext.opens (ctx : BuildContext) (attempt : Files.Attempt) (files : Files.Tree) : Bool :=
  (files.temporary? ctx.workDirectory "tmp" ".yul" [] attempt).isSome

/-- The states of the files between compilations: a compilation leads from one to another, and they
are alike in what a build asks of them. -/
structure Steady (ctx : BuildContext) (compiler : Compiler) (modules : List Module)
    (S : Files.Tree → Prop) : Prop where
  keeps {files : Files.Tree} {attempt : Files.Attempt} (hattempt : ctx.system.Meets attempt)
    (text version : String) (h : S files) :
    S (compileText ctx compiler attempt text version files).2
  reads {files files' : Files.Tree} {module : Module} (hm : module ∈ modules) (h : S files)
    (h' : S files') : (files.readText module.path).toOption = (files'.readText module.path).toOption
  opens {files files' : Files.Tree} {attempt : Files.Attempt}
    (hattempt : ctx.system.Meets attempt) (h : S files) (h' : S files') :
    ctx.opens attempt files = ctx.opens attempt files'

theorem Compiler.compileToBytes_files {compiler : Compiler} {path version : String}
    {files : Files.Tree} (h : (compiler.compile path version files).2 = files) :
    (compiler.compileToBytes path version files).2 = files := by
  unfold compileToBytes compileWith
  rw [Work.bind_apply]
  cases hcompile : compiler.compile path version files with
  | mk result last =>
    rw [hcompile] at h
    cases result <;> exact h

/-- Compilers that leave the files alone are steady. -/
theorem Steady.of_quiet {compiler : Compiler}
    (h : ∀ path version files, (compiler.compile path version files).2 = files)
    (ctx : BuildContext) (modules : List Module) (files : Files.Tree) :
    Steady ctx compiler modules (· = files) where
  keeps _ text version hfiles := by
    subst hfiles
    exact Work.withSource_files (fun path files => Compiler.compileToBytes_files (h _ _ _)) _
  reads _ hfiles hfiles' := by rw [hfiles, hfiles']
  opens _ hfiles hfiles' := by rw [hfiles, hfiles']

/-- The compiler's answer to the injected source of a task ends in the bytes of the task's last
probe, a body that is decided by the original source and the target, and no other occurrence of
those bytes. -/
def Answers (ctx : BuildContext) (compiler : Compiler) (plan : ProbePlan) (S : Files.Tree → Prop)
    (body : String → String → List UInt8) (task : Task) : Prop :=
  ∀ ⦃files files' : Files.Tree⦄ ⦃source injected path : String⦄ ⦃probes : List Probe⦄
    ⦃rest : ByteStream⦄ ⦃last : Probe⦄ ⦃place : Files.Place⦄, S files →
    files.readText task.module.path = .ok source →
    plan.draw task.module.sectionIndex task.stream = .ok (probes, rest) →
    probes.getLast? = some last → Yul.inject source probes = some injected →
    files.temporary? ctx.workDirectory "tmp" ".yul" injected.toUTF8.toList
      (ctx.system.source task.variant task.module) = some (path, place, files') →
    ∃ pre, (compiler.compileToBytes path (task.variant.version ctx.versions) files').1 =
        .ok (pre ++ last.encoding task.variant ++
          body source (task.variant.version ctx.versions)) ∧
      OnlyAtStart (last.encoding task.variant) (body source (task.variant.version ctx.versions))

/-- What the compilation of a module comes to. -/
def expected (ctx : BuildContext) (body : String → String → List UInt8) (files : Files.Tree)
    (variant : Variant) (module : Module) : Option CompiledModule :=
  (files.readText module.path).toOption.bind fun source =>
    if (Yul.findRuntimeBlock source).isSome ∧
        ctx.opens (ctx.system.source variant module) files then
      some (.ofBody module variant (body source (variant.version ctx.versions)))
    else none

theorem CompiledModule.module_ofBody (module : Module) (variant : Variant) (body : List UInt8) :
    (ofBody module variant body).module = module := by
  cases variant <;> rfl

theorem module_of_expected {ctx : BuildContext} {body : String → String → List UInt8}
    {files : Files.Tree} {variant : Variant} {module : Module} {compiled : CompiledModule}
    (h : expected ctx body files variant module = some compiled) : compiled.module = module := by
  obtain ⟨source, _, h⟩ := Option.bind_eq_some_iff.mp h
  split at h
  · cases h
    exact CompiledModule.module_ofBody module variant _
  · cases h

section

variable {ctx : BuildContext} {compiler : Compiler} {modules : List Module}
  {S : Files.Tree → Prop} {body : String → String → List UInt8} {files : Files.Tree}

/-- An injected source is answered when there can be a temporary file for it. -/
theorem compileText_answers {plan : ProbePlan} {task : Task} {probes : List Probe} {last : Probe}
    {rest : ByteStream} {source injected : String} {now : Files.Tree}
    (hanswers : Answers ctx compiler plan S body task) (hnow : S now)
    (hsource : now.readText task.module.path = .ok source)
    (hdraw : plan.draw task.module.sectionIndex task.stream = .ok (probes, rest))
    (hlast : probes.getLast? = some last) (hinject : Yul.inject source probes = some injected)
    (hopens : ctx.opens (ctx.system.source task.variant task.module) now) :
    ∃ output, (compileText ctx compiler (ctx.system.source task.variant task.module) injected
        (task.variant.version ctx.versions) now).1 = .ok output ∧
      CompiledModule.ofOutput task.module task.variant probes output = .ok (.ofBody task.module
        task.variant (body source (task.variant.version ctx.versions))) := by
  rw [BuildContext.opens, now.isSome_temporary? _ _ _ [] injected.toUTF8.toList] at hopens
  obtain ⟨⟨path, place, now'⟩, htemporary⟩ := Option.isSome_iff_exists.mp hopens
  obtain ⟨pre, hcompile, hbody⟩ := hanswers hnow hsource hdraw hlast hinject htemporary
  rw [compileText, Steps.compileSource, Work.withSource_of_some htemporary]
  exact ⟨_, hcompile, CompiledModule.ofOutput_append hlast hbody⟩

theorem compileText_of_not_opens (compiler : Compiler) (text version : String) {now : Files.Tree}
    {attempt : Files.Attempt} (hopens : ctx.opens attempt now = false) :
    (compileText ctx compiler attempt text version now).1.toOption = none := by
  rw [BuildContext.opens, now.isSome_temporary? _ _ _ [] text.toUTF8.toList] at hopens
  have hnone := Option.isNone_iff_eq_none.mp (Option.isSome_eq_false_iff.mp hopens)
  obtain ⟨step, fault, -, hall⟩ := Work.exists_withSource_of_none hnone
  rw [compileText, Steps.compileSource, hall]
  rfl

def compileInjected (ctx : BuildContext) (compiler : Compiler) (task : Task) (probes : List Probe)
    (injected : String) : Job CompiledModule := do
  let output ← compileText ctx compiler (ctx.system.source task.variant task.module) injected
    (task.variant.version ctx.versions)
  Work.ofExcept (CompiledModule.ofOutput task.module task.variant probes output)

theorem compileInjected_spec {plan : ProbePlan} {task : Task} {probes : List Probe} {last : Probe}
    {rest : ByteStream} {source injected : String} {now : Files.Tree}
    (hsteady : Steady ctx compiler modules S) (hanswers : Answers ctx compiler plan S body task)
    (hnow : S now) (hsource : now.readText task.module.path = .ok source)
    (hdraw : plan.draw task.module.sectionIndex task.stream = .ok (probes, rest))
    (hlast : probes.getLast? = some last) (hinject : Yul.inject source probes = some injected) :
    (compileInjected ctx compiler task probes injected now).1.toOption =
        (if ctx.opens (ctx.system.source task.variant task.module) now then
          some (.ofBody task.module task.variant (body source (task.variant.version ctx.versions)))
        else none) ∧
      S (compileInjected ctx compiler task probes injected now).2 := by
  have hkeeps := hsteady.keeps (.inl ⟨task.variant, task.module, rfl⟩) injected
    (task.variant.version ctx.versions) hnow
  rw [compileInjected, Work.bind_apply]
  by_cases hopens : ctx.opens (ctx.system.source task.variant task.module) now
  · obtain ⟨output, hcompile, hout⟩ :=
      compileText_answers hanswers hnow hsource hdraw hlast hinject hopens
    rw [if_pos hopens]
    cases hrun : compileText ctx compiler (ctx.system.source task.variant task.module) injected
        (task.variant.version ctx.versions) now with
    | mk result left =>
      rw [hrun] at hcompile hkeeps
      obtain rfl : result = .ok output := hcompile
      dsimp only [Work.ofExcept]
      rw [hout]
      exact ⟨rfl, hkeeps⟩
  · have hnone := compileText_of_not_opens compiler injected
      (task.variant.version ctx.versions) (Bool.eq_false_iff.mpr hopens)
    rw [if_neg hopens]
    cases hrun : compileText ctx compiler (ctx.system.source task.variant task.module) injected
        (task.variant.version ctx.versions) now with
    | mk result left =>
      rw [hrun] at hnone hkeeps
      cases result with
      | error e => exact ⟨rfl, hkeeps⟩
      | ok output => cases hnone

/-- A module compiles to its body, whatever has been compiled before and whatever its probes
are. -/
theorem compileModule_yields {modulesCount i : Nat} {task : Task}
    (hsteady : Steady ctx compiler modules S) (hfiles : S files) (hm : task.module ∈ modules)
    (hi : i < modulesCount) (hsection : task.module.sectionIndex = i + 1)
    (hanswers : Answers ctx compiler (.make ctx.layout modulesCount) S body task) :
    Work.Yields S (compileModule ctx compiler (.make ctx.layout modulesCount) task.variant
      task.module task.stream) (expected ctx body files task.variant task.module) := by
  obtain ⟨probes, rest, hdraw, hlen⟩ := ProbePlan.exists_draw hi task.stream
  rw [← hsection] at hdraw
  have hne : probes ≠ [] := by
    rw [← List.length_pos_iff, hlen]
    exact Nat.mul_pos ctx.layout.probesPerModule_pos (Nat.succ_pos i)
  have hlast := List.getLast?_eq_some_getLast hne
  unfold compileModule Steps.compileModule expected
  refine (Work.Yields.readText fun now hnow => hsteady.reads hm hnow hfiles).bind
    fun source hsource => ?_
  have hdraw' : Steps.unchecked.draw (.make ctx.layout modulesCount) task.module.sectionIndex
      task.stream = .ok (probes, rest) := congrArg (Except.mapError _) hdraw
  have hfind : (Yul.findRuntimeBlock source).isSome = (Yul.inject source probes).isSome := by
    rw [Yul.inject, Option.isSome_map]
  have hinject' : Steps.unchecked.inject source probes =
      .ok ((Yul.inject source probes).map fun text => text.toUTF8.toList) := rfl
  rw [hdraw', Work.ofResult_ok_bind, hfind]
  dsimp only
  rw [hinject', Work.ofResult_ok_bind]
  cases hinject : Yul.inject source probes with
  | none =>
    rw [if_neg fun h => Bool.false_ne_true h.1]
    exact Work.Yields.fail _
  | some injected =>
    intro now hnow
    have hread : now.readText task.module.path = .ok source := by
      rw [← hsteady.reads hm hnow hfiles] at hsource
      cases hnowRead : now.readText task.module.path with
      | error fault =>
        rw [hnowRead] at hsource
        cases hsource
      | ok text =>
        rw [hnowRead] at hsource
        cases hsource
        rfl
    rw [← hsteady.opens (.inl ⟨task.variant, task.module, rfl⟩) hnow hfiles]
    simp only [Option.isSome_some, true_and]
    exact compileInjected_spec hsteady hanswers hnow hread hdraw hlast hinject

variable {plan : ProbePlan} {value : Variant → Module → Option CompiledModule}

theorem compileTask_spec {task : Task} (hyields : Work.Yields S
      (compileModule ctx compiler plan task.variant task.module task.stream)
      (value task.variant task.module)) (progress : Progress) {now : Files.Tree} (hnow : S now) :
    S (compileTask ctx compiler plan task progress now).2 ∧ ∀ v,
      ((compileTask ctx compiler plan task progress now).1 v).toOption =
        (progress v).toOption.bind fun done =>
          if task.variant = v then (value v task.module).map (done ++ [·]) else some done := by
  obtain ⟨hresult, hleft⟩ := hyields now hnow
  cases hprogress : progress task.variant with
  | error e =>
    rw [compileTask_of_error ctx compiler plan hprogress]
    refine ⟨hnow, fun v => ?_⟩
    dsimp only
    by_cases hv : task.variant = v
    · rw [← hv, hprogress]
      rfl
    · simp only [if_neg hv]
      cases progress v <;> rfl
  | ok done =>
    rw [compileTask_of_ok ctx compiler plan hprogress]
    refine ⟨hleft, fun v => ?_⟩
    dsimp only
    by_cases hv : task.variant = v
    · subst hv
      rw [if_pos rfl, hprogress, ← hresult]
      simp only [if_true]
      cases (compileModule ctx compiler plan task.variant task.module task.stream now).1 <;> rfl
    · simp only [if_neg hv, if_neg (Ne.symm hv)]
      cases progress v <;> rfl

/-- Whatever order tasks are done in, each kind of target has what its tasks come to, or has
failed. -/
theorem compileTasks_spec {order : List Task} (hyields : ∀ task ∈ order, Work.Yields S
      (compileModule ctx compiler plan task.variant task.module task.stream)
      (value task.variant task.module)) (progress : Progress) {now : Files.Tree} (hnow : S now) :
    S (compileTasks ctx compiler plan order progress now).2 ∧ ∀ v,
      ((compileTasks ctx compiler plan order progress now).1 v).toOption =
        (progress v).toOption.bind fun done =>
          ((order.filter (·.variant = v)).mapM fun task => value v task.module).map
            (done ++ ·) := by
  induction order generalizing progress now with
  | nil =>
    refine ⟨hnow, fun v => ?_⟩
    simp [compileTasks]
  | cons task order ih =>
    obtain ⟨hmiddle, hstep⟩ := compileTask_spec (hyields task List.mem_cons_self) progress hnow
    obtain ⟨hlast, hrest⟩ := ih (fun t ht => hyields t (List.mem_cons_of_mem _ ht))
      (compileTask ctx compiler plan task progress now).1 hmiddle
    refine ⟨hlast, fun v => (hrest v).trans ?_⟩
    rw [hstep v, Option.bind_assoc]
    congr 1
    funext done
    by_cases hv : task.variant = v
    · rw [if_pos hv, List.filter_cons_of_pos (by simpa using hv), List.mapM_cons]
      cases value v task.module with
      | none => rfl
      | some compiled =>
        simp only [Option.map_some, Option.bind_some, Option.bind_eq_bind]
        cases (order.filter (·.variant = v)).mapM fun task => value v task.module with
        | none => rfl
        | some rest => exact congrArg some (List.append_assoc done [compiled] rest)
    · rw [if_neg hv, List.filter_cons_of_neg (by simpa using hv)]
      rfl

theorem mapM_eq_filterMap {α β : Type} (f : α → Option β) (l : List α) :
    l.mapM f = if l.all fun a => (f a).isSome then some (l.filterMap f) else none := by
  induction l with
  | nil => rfl
  | cons a l ih =>
    rw [List.mapM_cons, ih, List.all_cons]
    cases ha : f a with
    | none => rfl
    | some b =>
      rw [List.filterMap_cons_some ha]
      cases l.all fun a => (f a).isSome <;> rfl

theorem mapM_congr {α β : Type} {f g : α → Option β} {l : List α} (h : ∀ a ∈ l, f a = g a) :
    l.mapM f = l.mapM g := by
  induction l with
  | nil => rfl
  | cons a l ih =>
    obtain ⟨ha, hl⟩ := List.forall_mem_cons.mp h
    rw [List.mapM_cons, List.mapM_cons, ha, ih hl]

theorem length_of_mapM {α β : Type} {f : α → Option β} {l : List α} {l' : List β}
    (h : l.mapM f = some l') : l'.length = l.length := by
  induction l generalizing l' with
  | nil =>
    cases h
    rfl
  | cons a l ih =>
    rw [List.mapM_cons] at h
    obtain ⟨b, _, h⟩ := Option.bind_eq_some_iff.mp h
    obtain ⟨rest, hrest, h⟩ := Option.bind_eq_some_iff.mp h
    cases h
    exact congrArg (· + 1) (ih hrest)

theorem toOption_mapM {ε α β : Type} (f : α → Except ε β) (l : List α) :
    (l.mapM f).toOption = l.mapM fun a => (f a).toOption := by
  induction l with
  | nil => rfl
  | cons a l ih =>
    rw [List.mapM_cons, List.mapM_cons, ← ih]
    cases f a with
    | error e => rfl
    | ok b => cases l.mapM f <;> rfl

/-- Putting what has been compiled in the order of the modules undoes the order of the tasks. -/
theorem map_inOrder_mapM {f : Module → Option CompiledModule}
    (hf : ∀ m compiled, f m = some compiled → compiled.module = m) {ms : List Module}
    (hperm : ms.Perm modules) : (ms.mapM f).map (inOrder modules) = modules.mapM f := by
  rw [mapM_eq_filterMap, mapM_eq_filterMap, ← hperm.all_eq]
  by_cases hall : ms.all fun m => (f m).isSome
  · rw [if_pos hall, if_pos hall, Option.map_some, inOrder]
    congr 1
    refine List.filterMap_congr fun m hm => ?_
    have hms : m ∈ ms := hperm.mem_iff.mpr hm
    obtain ⟨compiled, hcompiled⟩ := Option.isSome_iff_exists.mp (List.all_eq_true.mp hall m hms)
    have hmodule := hf m compiled hcompiled
    have hmem : compiled ∈ ms.filterMap f := List.mem_filterMap.mpr ⟨m, hms, hcompiled⟩
    rw [hcompiled, ← hmodule]
    refine find?_module hmem fun other hother hother' => ?_
    obtain ⟨m', _, hm'⟩ := List.mem_filterMap.mp hother
    have : m' = m := by rw [← hf m' other hm', hother', hmodule]
    rw [this, hcompiled, Option.some.injEq] at hm'
    exact hm'.symm
  · rw [if_neg hall, if_neg hall]
    rfl

/-- The image of a kind of target does not depend on the order of its tasks. -/
theorem toOption_image {order : List Task} {v : Variant}
    (hyields : ∀ task ∈ order, Work.Yields S
      (compileModule ctx compiler plan task.variant task.module task.stream)
      (value task.variant task.module))
    (hvalue : ∀ m compiled, value v m = some compiled → compiled.module = m)
    (hperm : ((order.filter (·.variant = v)).map (·.module)).Perm modules) (layout : Layout)
    {now : Files.Tree} (hnow : S now) :
    ((compileTasks ctx compiler plan order (fun _ => .ok []) now).1.image layout modules
        v).toOption =
      (modules.mapM (value v)).bind fun done => (Image.assemble layout v done).toOption := by
  have hprogress := (compileTasks_spec hyields (fun _ => .ok []) hnow).2 v
  have hmapM : ((order.filter (·.variant = v)).mapM fun task => value v task.module) =
      ((order.filter (·.variant = v)).map (·.module)).mapM (value v) := List.mapM_map.symm
  rw [← map_inOrder_mapM hvalue hperm, ← hmapM]
  have hstart : (Except.ok [] : Except Failure (List CompiledModule)).toOption = some [] := rfl
  rw [hstart, Option.bind_some] at hprogress
  simp only [List.nil_append, Option.map_id'] at hprogress
  rw [← hprogress]
  unfold Progress.image
  cases (compileTasks ctx compiler plan order (fun _ => .ok []) now).1 v <;> rfl

end

def conditionalFrom (shim : Option (List UInt8)) (push0 legacy : Image) : Option (List UInt8) :=
  if push0.length ≠ legacy.length then none
  else shim.bind fun compiled => (Initcode.conditional compiled push0 legacy).toOption

def deployed (mode : Mode) (shim : Option (List UInt8)) : (images : List Image) → Option Artifacts
  | [image] => do return ⟨mode, [image], ← (Initcode.single image).toOption, [], none⟩
  | [push0, legacy] => do
    let differing ← (Image.differingOffsets push0 legacy).toOption
    let initcode ← conditionalFrom shim push0 legacy
    return ⟨mode, [push0, legacy], initcode, differing, none⟩
  | _ => none

/-- What a build comes to: neither its random bytes nor the order of its tasks appear here. -/
def outcome (ctx : BuildContext) (mode : Mode) (modules : List Module)
    (body : String → String → List UInt8) (shim : Option (List UInt8)) (files : Files.Tree) :
    Option Artifacts :=
  if modules.isEmpty ∨ ctx.threadFault?.isSome then none
  else (mode.variants.mapM fun variant =>
    (modules.mapM (expected ctx body files variant)).bind fun compiled =>
      (Image.assemble ctx.layout variant compiled).toOption).bind (deployed mode shim)

section

variable {ctx : BuildContext} {compiler : Compiler} {mode : Mode} {template : String}
  {modules : List Module} {body : String → String → List UInt8} {S : Files.Tree → Prop}
  {shim : Option (List UInt8)} {files : Files.Tree}

theorem buildConditional_yields
    (hshim : Work.Yields S (compileText ctx compiler ctx.system.shim template ctx.versions.legacy)
      shim) (push0 legacy : Image) : Work.Yields S
        (Steps.unchecked.buildConditional ctx compiler template push0 legacy)
        (conditionalFrom shim push0 legacy) := by
  unfold Steps.buildConditional conditionalFrom
  by_cases hlen : push0.length ≠ legacy.length
  · rw [if_pos hlen, if_pos hlen]
    exact Work.Yields.fail _
  · rw [if_neg hlen, if_neg hlen]
    exact hshim.bind fun compiled _ => Work.Yields.ofResult_mapError _ _

theorem deploy_yields {images : List Image} (hshim : images.length = 2 →
      Work.Yields S (compileText ctx compiler ctx.system.shim template ctx.versions.legacy) shim) :
    Work.Yields S (Steps.unchecked.deploy ctx compiler mode template images)
      (deployed mode shim images) := by
  match images with
  | [] => exact Work.Yields.ofResult _
  | [image] =>
    exact (Work.Yields.ofResult_mapError _ _).bind fun initcode _ => Work.Yields.pure _
  | [push0, legacy] =>
    refine (Work.Yields.ofResult_mapError _ _).bind fun differing _ => ?_
    exact (buildConditional_yields (hshim rfl) push0 legacy).bind
      fun initcode _ => Work.Yields.pure _
  | _ :: _ :: _ :: _ => exact Work.Yields.ofResult _

theorem imagesInOrder_yields {streams : Streams} {order : List Task}
    (hsteady : Steady ctx compiler modules S) (hfiles : S files)
    (hnumbered : ∀ module ∈ modules, ∃ i < modules.length, module.sectionIndex = i + 1)
    (hserve : streams.Serve mode modules)
    (hanswers : ∀ task ∈ tasks mode modules streams,
      Answers ctx compiler (.make ctx.layout modules.length) S body task)
    (horder : order.Perm (tasks mode modules streams)) : Work.Yields S
      (imagesInOrder ctx compiler mode modules order (.make ctx.layout modules.length))
      (mode.variants.mapM fun variant =>
        (modules.mapM (expected ctx body files variant)).bind fun compiled =>
          (Image.assemble ctx.layout variant compiled).toOption) := by
  intro now hnow
  have hyields : ∀ task ∈ order, Work.Yields S (compileModule ctx compiler
      (.make ctx.layout modules.length) task.variant task.module task.stream)
      (expected ctx body files task.variant task.module) := by
    intro task htask
    have htask' := horder.mem_iff.mp htask
    have hm := module_mem_of_mem_tasks htask'
    obtain ⟨i, hi, hsection⟩ := hnumbered _ hm
    exact compileModule_yields hsteady hfiles hm hi hsection (hanswers task htask')
  refine ⟨?_, (compileTasks_spec hyields (fun _ => .ok []) hnow).1⟩
  refine (toOption_mapM _ _).trans (mapM_congr fun v hv => ?_)
  refine toOption_image hyields (fun _ _ => module_of_expected) ?_ ctx.layout hnow
  rw [← filter_tasks hserve hv]
  exact (horder.filter _).map _

/-- A build comes to its outcome, from all states of the files between compilations. -/
theorem buildInOrder_yields {streams : Streams} {order : List Task}
    (hsteady : Steady ctx compiler modules S) (hfiles : S files)
    (hshim : mode = .dual → Work.Yields S
      (compileText ctx compiler ctx.system.shim template ctx.versions.legacy) shim)
    (hnumbered : ∀ module ∈ modules, ∃ i < modules.length, module.sectionIndex = i + 1)
    (hserve : streams.Serve mode modules)
    (hanswers : ∀ task ∈ tasks mode modules streams,
      Answers ctx compiler (.make ctx.layout modules.length) S body task)
    (horder : order.Perm (tasks mode modules streams)) :
    Work.Yields S (buildInOrder ctx compiler mode template modules order)
      (outcome ctx mode modules body shim files) := by
  unfold buildInOrder outcome
  rw [buildFrom_unchecked]
  by_cases hempty : modules.isEmpty
  · rw [if_pos hempty, if_pos (.inl hempty)]
    exact Work.Yields.fail _
  rw [if_neg hempty]
  cases hthreads : ctx.threadFault? with
  | some fault =>
    rw [if_pos (.inr rfl)]
    exact Work.Yields.fail _
  | none =>
    rw [if_neg (not_or.mpr ⟨hempty, nofun⟩)]
    refine (imagesInOrder_yields hsteady hfiles hnumbered hserve hanswers horder).bind
      fun images himages => deploy_yields fun htwo => hshim ?_
    cases mode with
    | single => exact absurd ((length_of_mapM himages).symm.trans htwo) (by decide)
    | dual => rfl

theorem Module.nodup_ofPaths (paths : List String) : (Module.ofPaths paths).Nodup := by
  have hindices : (Module.ofPaths paths).map (·.sectionIndex) = List.range' 1 paths.length := by
    rw [Module.ofPaths, List.map_map]
    exact List.zipIdx_map_snd 1 paths
  exact List.Nodup.of_map _ (hindices ▸ List.nodup_range')

theorem Module.exists_of_mem_ofPaths {paths : List String} {module : Module}
    (h : module ∈ Module.ofPaths paths) :
    ∃ i < (Module.ofPaths paths).length, module.sectionIndex = i + 1 := by
  obtain ⟨⟨path, index⟩, hmem, rfl⟩ := List.mem_map.mp h
  obtain ⟨hle, hlt, _⟩ := List.mem_zipIdx hmem
  refine ⟨index - 1, ?_, ?_⟩
  · rw [Module.ofPaths, List.length_map, List.length_zipIdx]
    omega
  · dsimp only
    omega

/-- Contexts for one layout and one pair of versions. Sources may be put elsewhere and under other
names, and modules compiled on other threads, as long as there are files and threads in both or in
neither. -/
structure BuildContext.Alike (ctx ctx' : BuildContext) (modules : List Module)
    (files : Files.Tree) : Prop where
  layout : ctx'.layout = ctx.layout
  versions : ctx'.versions = ctx.versions
  threads : ctx'.threadFault?.isSome = ctx.threadFault?.isSome
  opens (variant : Variant) {module : Module} (hm : module ∈ modules) :
    ctx'.opens (ctx'.system.source variant module) files =
      ctx.opens (ctx.system.source variant module) files

theorem outcome_eq_of_alike {ctx' : BuildContext} (h : ctx.Alike ctx' modules files) :
    outcome ctx' mode modules body shim files = outcome ctx mode modules body shim files := by
  have hexpected (variant : Variant) : modules.mapM (expected ctx' body files variant) =
      modules.mapM (expected ctx body files variant) :=
    mapM_congr fun module hm => by rw [expected, expected, h.versions, h.opens variant hm]
  simp only [outcome, h.threads, h.layout, hexpected]

/-- Two builds of the same modules with different random bytes, their modules compiled in any
orders, from any places for temporary files and under any names, both fail or both return the same
artifacts, if the compiler puts a body that does not depend on the probes behind the last of
them. -/
theorem build_reproducible {paths : List String} {ctx₁ ctx₂ : BuildContext}
    {streams₁ streams₂ : Streams} {order₁ order₂ : List Task}
    (hctx : ctx₁.Alike ctx₂ (Module.ofPaths paths) files) (hfiles : S files)
    (hsteady₁ : Steady ctx₁ compiler (Module.ofPaths paths) S)
    (hsteady₂ : Steady ctx₂ compiler (Module.ofPaths paths) S)
    (hshim : mode = .dual → ∀ ctx ∈ [ctx₁, ctx₂], ∀ now, S now →
      (compileText ctx compiler ctx.system.shim template ctx.versions.legacy now).1.toOption = shim)
    (hserve₁ : streams₁.Serve mode (Module.ofPaths paths))
    (hserve₂ : streams₂.Serve mode (Module.ofPaths paths))
    (hanswers₁ : ∀ task ∈ tasks mode (Module.ofPaths paths) streams₁,
      Answers ctx₁ compiler (.make ctx₁.layout (Module.ofPaths paths).length) S body task)
    (hanswers₂ : ∀ task ∈ tasks mode (Module.ofPaths paths) streams₂,
      Answers ctx₂ compiler (.make ctx₂.layout (Module.ofPaths paths).length) S body task)
    (horder₁ : order₁.Perm (tasks mode (Module.ofPaths paths) streams₁))
    (horder₂ : order₂.Perm (tasks mode (Module.ofPaths paths) streams₂)) :
    ∃ outcome : Option Artifacts,
      (buildInOrder ctx₁ compiler mode template (Module.ofPaths paths) order₁ files).1.toOption =
        outcome ∧
      (buildInOrder ctx₂ compiler mode template (Module.ofPaths paths) order₂ files).1.toOption =
        outcome ∧
      (build ctx₁ compiler mode template (Module.ofPaths paths) streams₁ files).1.toOption =
        outcome ∧
      (build ctx₂ compiler mode template (Module.ofPaths paths) streams₂ files).1.toOption =
        outcome := by
  have hyields₁ (hmode : mode = .dual) : Work.Yields S
      (compileText ctx₁ compiler ctx₁.system.shim template ctx₁.versions.legacy) shim :=
    fun now hnow => ⟨hshim hmode ctx₁ (by simp) now hnow, hsteady₁.keeps (.inr rfl) _ _ hnow⟩
  have hyields₂ (hmode : mode = .dual) : Work.Yields S
      (compileText ctx₂ compiler ctx₂.system.shim template ctx₂.versions.legacy) shim :=
    fun now hnow => ⟨hshim hmode ctx₂ (by simp) now hnow, hsteady₂.keeps (.inr rfl) _ _ hnow⟩
  have hnodup := Module.nodup_ofPaths paths
  have hnumbered : ∀ module ∈ Module.ofPaths paths,
      ∃ i < (Module.ofPaths paths).length, module.sectionIndex = i + 1 :=
    fun _ => Module.exists_of_mem_ofPaths
  have hinOrder₁ {order : List Task} (horder : order.Perm (tasks mode _ streams₁)) :=
    (buildInOrder_yields hsteady₁ hfiles hyields₁ hnumbered hserve₁ hanswers₁ horder files
      hfiles).1
  have hinOrder₂ {order : List Task} (horder : order.Perm (tasks mode _ streams₂)) :=
    (buildInOrder_yields hsteady₂ hfiles hyields₂ hnumbered hserve₂ hanswers₂ horder files
      hfiles).1.trans (outcome_eq_of_alike hctx)
  refine ⟨_, hinOrder₁ horder₁, hinOrder₂ horder₂, ?_, ?_⟩
  · rw [build_eq_buildInOrder ctx₁ compiler hnodup hserve₁]
    exact hinOrder₁ (.refl _)
  · rw [build_eq_buildInOrder ctx₂ compiler hnodup hserve₂]
    exact hinOrder₂ (.refl _)

end

theorem Files.Tree.textOfBytes_toUTF8 (s : String) : textOfBytes s.toUTF8.toList = .ok s := by
  have hbytes : (⟨s.toUTF8.toList.toArray⟩ : ByteArray) = s.toUTF8 := by
    rw [ByteArray.toList, toList_loop_eq]
    rfl
  have htext : String.fromUTF8? s.toUTF8 = some s := by
    rw [String.fromUTF8?, dif_pos (by simpa using s.isValidUTF8)]
    rfl
  rw [textOfBytes, hbytes, htext]

theorem toList_toUTF8_injective {s t : String} (h : s.toUTF8.toList = t.toUTF8.toList) : s = t := by
  have ht := Files.Tree.textOfBytes_toUTF8 t
  rw [← h, Files.Tree.textOfBytes_toUTF8] at ht
  exact Except.ok.inj ht

theorem Compiler.compileToBytes_of_compile {compiler : Compiler} {path version text : String}
    {files left : Files.Tree} (h : compiler.compile path version files = (.ok text, left)) :
    compiler.compileToBytes path version files =
      ((bytesOfText compiler.name path text).mapError .error, left) := by
  unfold compileToBytes compileWith
  rw [Work.bind_apply, h]
  rfl

theorem Compiler.bytesOfText_encode (name path : String) {bytes : List UInt8} (h : bytes ≠ []) :
    bytesOfText name path (Hex.encode bytes) = .ok bytes := by
  rw [bytesOfText, Hex.lastToken_encode h]
  dsimp only
  rw [Hex.decode_encode]
  rfl

theorem Yul.inject_singleton_ne {source injected : String} {p q : Probe} (h : p.yul ≠ q.yul)
    (hp : inject source [p] = some injected) : inject source [q] ≠ some injected := by
  intro hq
  obtain ⟨block, hblock, rfl⟩ := Option.map_eq_some_iff.mp hp
  rw [inject, hblock, Option.map_some, Option.some.injEq] at hq
  have hjoin := String.append_left_inj _ |>.mp hq
  have hmiddle := String.append_right_inj _ |>.mp hjoin
  refine h ?_
  simpa [String.join] using hmiddle.symm

namespace Sample

/-- Sections of 32 bytes, in which a single module has a single probe. -/
def context : BuildContext where
  layout := ⟨5, by decide, by decide⟩
  versions := {}
  workDirectory := "/"
  jobs := none
  system := ⟨fun _ _ => .numbered 1, .numbered 1, fun _ => none⟩

/-- On threads of their own, and with another name for sources. -/
def context' : BuildContext :=
  { context with
    jobs := some 4
    system := ⟨fun _ _ => ⟨["a"], by simp, none, none⟩, .numbered 1, fun _ => none⟩ }

def modulePath : String := "a.yul"

def files : Files.Tree :=
  ⟨[([modulePath], .file (Yul.ascii "object \"runtime\" \x7b code \x7b \x7d \x7d") false)], []⟩

def ones : Probe := ⟨0xff, ⟨List.replicate 29 1, by decide, by decide⟩⟩

def threes : Probe := ⟨0xff, ⟨List.replicate 29 3, by decide, by decide⟩⟩

def injected? (p : Probe) : Option (List UInt8) := do
  let source ← (files.readText modulePath).toOption
  let injected ← Yul.inject source [p]
  return injected.toUTF8.toList

/-- What is printed for the two injected sources, the bytes of the probe and those of `STOP`, and
for the shim. -/
def answer (newest : Option (List UInt8)) : String :=
  if newest = injected? ones then
    "7c010101010101010101010101010101010101010101010101010101010160ff5200"
  else if newest = injected? threes then
    "7c030303030303030303030303030303030303030303030303030303030360ff5200"
  else "f3fe61ffee6033625f5ff36000526003601d6000f0601a57508038035b81906000396000f3"

/-- Tells sources apart by the newest file. -/
def compiler : Compiler where
  name := "sample"
  compile _ _ files :=
    (.ok (answer (match files.entries with
      | (_, .file bytes _) :: _ => some bytes
      | _ => none)), files)

def body (_source _version : String) : List UInt8 := [0x00]

theorem onlyAtStart (p : Probe) (hp : p = ones ∨ p = threes) (variant : Variant) :
    OnlyAtStart (p.encoding variant) [0x00] := by
  intro k hk
  have hlen := hk.length_le
  have henc : (p.encoding variant).length = 33 := by
    obtain rfl | rfl := hp <;> cases variant <;> rfl
  simp only [List.length_drop, List.length_append, List.length_singleton, henc] at hlen
  have hk1 : k = 0 ∨ k = 1 := by omega
  obtain rfl | rfl := hk1
  · rfl
  · obtain rfl | rfl := hp <;> cases variant <;> exact absurd hk (by decide)

theorem encoding_eq (p : Probe) (hp : p = ones ∨ p = threes) (variant : Variant) :
    p.encoding variant = p.encoding .legacy := by
  obtain rfl | rfl := hp <;> cases variant <;> rfl

theorem injected?_of_source {source : String} (h : files.readText modulePath = .ok source)
    (p : Probe) : injected? p = (Yul.inject source [p]).map fun s => s.toUTF8.toList := by
  rw [injected?, h]
  cases hinject : Yul.inject source [p] <;> simp [Except.toOption, hinject]

theorem yul_ones_ne : threes.yul ≠ ones.yul := by
  have hones : ones.yul =
    " mstore(0xff,0x0101010101010101010101010101010101010101010101010101010101)" := by cbv
  have hthrees : threes.yul =
    " mstore(0xff,0x0303030303030303030303030303030303030303030303030303030303)" := by cbv
  rw [hones, hthrees]
  decide

theorem injected?_threes_ne {source : String} (h : files.readText modulePath = .ok source)
    {injected : String} (hinject : Yul.inject source [threes] = some injected) :
    injected? threes ≠ injected? ones := by
  rw [injected?_of_source h, injected?_of_source h, hinject, Option.map_some]
  intro heq
  obtain ⟨other, hother, hbytes⟩ := Option.map_eq_some_iff.mp heq.symm
  rw [toList_toUTF8_injective hbytes] at hother
  exact Yul.inject_singleton_ne yul_ones_ne hinject hother

theorem bytesOfText_answer {p : Probe} (hp : p = ones ∨ p = threes) {source injected : String}
    (h : files.readText modulePath = .ok source) (hinject : Yul.inject source [p] = some injected)
    (path : String) : Compiler.bytesOfText "sample" path (answer (injected? p)) =
      .ok (p.encoding .legacy ++ [0x00]) := by
  have hbytes : p.encoding .legacy ++ [0x00] ≠ [] := List.append_ne_nil_of_right_ne_nil _ nofun
  suffices htext : answer (injected? p) = Hex.encode (p.encoding .legacy ++ [0x00]) by
    rw [htext, Compiler.bytesOfText_encode _ _ hbytes]
  obtain rfl | rfl := hp
  · rw [answer, if_pos rfl]
    decide +kernel
  · rw [answer, if_neg (injected?_threes_ne h hinject), if_pos rfl]
    decide +kernel

/-- The compiler answers every injected source with the bytes of its probe and of the body. -/
theorem answers (ctx : BuildContext) {p : Probe} (hp : p = ones ∨ p = threes)
    {stream rest : ByteStream}
    (hdraw : (ProbePlan.make context.layout 1).draw 1 stream = .ok ([p], rest))
    (variant : Variant) : Answers ctx compiler (.make context.layout 1) (· = files) body
      ⟨variant, ⟨modulePath, 1⟩, stream⟩ := by
  intro now now' source injected path probes rest' last place hnow hsource hdraw' hlast hinject
    htemporary
  subst hnow
  dsimp only at hsource hdraw' hinject
  rw [hdraw] at hdraw'
  obtain ⟨rfl, rfl⟩ := Prod.mk.inj (Except.ok.inj hdraw')
  obtain rfl : p = last := Option.some.inj hlast
  obtain ⟨-, -, -, rfl⟩ := Files.Tree.temporary?_eq_some htemporary
  refine ⟨[], ?_, onlyAtStart p hp variant⟩
  have hbytes := bytesOfText_answer hp hsource hinject path
  rw [injected?_of_source hsource, hinject, Option.map_some] at hbytes
  rw [Compiler.compileToBytes_of_compile rfl]
  change (Compiler.bytesOfText "sample" path
    (answer (some injected.toUTF8.toList))).mapError _ = _
  rw [hbytes, List.nil_append]
  dsimp only
  rw [encoding_eq p hp variant]
  rfl

/-- The first sentinel drawn for `ones` begins with zero and is rejected. -/
def onesStream : ByteStream := ⟨List.replicate 29 0 ++ List.replicate 29 1, 0⟩

def threesStream : ByteStream := ⟨List.replicate 29 3, 0⟩

theorem draw_onesStream : (ProbePlan.make context.layout 1).draw 1 onesStream =
    .ok ([ones], ⟨[], 58⟩) := by cbv

theorem draw_threesStream : (ProbePlan.make context.layout 1).draw 1 threesStream =
    .ok ([threes], ⟨[], 29⟩) := by cbv

theorem answers_tasks (ctx : BuildContext) {p : Probe} (hp : p = ones ∨ p = threes)
    {stream rest : ByteStream}
    (hdraw : (ProbePlan.make context.layout 1).draw 1 stream = .ok ([p], rest)) :
    ∀ task ∈ tasks .dual (Module.ofPaths [modulePath]) ⟨[stream], [stream]⟩,
      Answers ctx compiler (.make context.layout (Module.ofPaths [modulePath]).length)
        (· = files) body task := by
  intro task htask
  obtain ⟨variant, rfl⟩ : ∃ variant, task = ⟨variant, ⟨modulePath, 1⟩, stream⟩ := by
    obtain rfl | htask := List.mem_cons.mp htask
    · exact ⟨_, rfl⟩
    · obtain rfl := List.mem_singleton.mp htask
      exact ⟨_, rfl⟩
  exact answers ctx hp hdraw variant

theorem alike : context.Alike context' (Module.ofPaths [modulePath]) files where
  layout := rfl
  versions := rfl
  threads := rfl
  opens _ _ _ := by
    have hopens : ∀ ctx ∈ [context, context'],
        ctx.opens (ctx.system.source .legacy ⟨modulePath, 1⟩) files := by decide
    exact (hopens context' (by simp)).trans (hopens context (by simp)).symm

theorem compileText_alike : ∀ ctx ∈ [context, context'], ∀ now, now = files →
    (compileText ctx compiler ctx.system.shim "" ctx.versions.legacy now).1.toOption =
      (compileText context compiler context.system.shim "" context.versions.legacy
        files).1.toOption := by
  intro ctx hctx now hnow
  subst hnow
  obtain rfl | hctx := List.mem_cons.mp hctx
  · rfl
  · obtain rfl := List.mem_singleton.mp hctx
    rfl

end Sample

open Sample in
theorem build_reproducible_sample : ∃ outcome : Option Artifacts,
    (buildInOrder context compiler .dual "" (Module.ofPaths [modulePath])
      (tasks .dual (Module.ofPaths [modulePath]) ⟨[onesStream], [onesStream]⟩)
      files).1.toOption = outcome ∧
    (buildInOrder context' compiler .dual "" (Module.ofPaths [modulePath])
      (tasks .dual (Module.ofPaths [modulePath]) ⟨[threesStream], [threesStream]⟩).reverse
      files).1.toOption = outcome ∧
    (build context compiler .dual "" (Module.ofPaths [modulePath])
      ⟨[onesStream], [onesStream]⟩ files).1.toOption = outcome ∧
    (build context' compiler .dual "" (Module.ofPaths [modulePath])
      ⟨[threesStream], [threesStream]⟩ files).1.toOption = outcome := by
  have hquiet : ∀ path version files, (compiler.compile path version files).2 = files :=
    fun _ _ _ => rfl
  exact build_reproducible (S := (· = files)) alike rfl (Steady.of_quiet hquiet _ _ files)
    (Steady.of_quiet hquiet _ _ files) (fun _ => compileText_alike) ⟨rfl, fun _ => rfl⟩
    ⟨rfl, fun _ => rfl⟩ (answers_tasks _ (.inl rfl) draw_onesStream)
    (answers_tasks _ (.inr rfl) draw_threesStream) (.refl _) (List.reverse_perm _)

end ImageLinker
