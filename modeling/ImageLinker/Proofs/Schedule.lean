import Mathlib.Data.List.Nodup
import ImageLinker.Proofs.Outcomes
import ImageLinker.Proofs.Probing

/-!
The compilations of a build in any order. A module has one task for each kind of target; tasks are
done one after the other, and a kind of target that has failed compiles nothing more.
-/
namespace ImageLinker

/-- The compilation of one module for one kind of target. -/
structure Task where
  variant : Variant
  module : Module
  stream : ByteStream
  deriving DecidableEq, Repr, Inhabited

def Mode.variants : Mode → List Variant
  | .single => [.legacy]
  | .dual => [.push0, .legacy]

def tasksFor (variant : Variant) (modules : List Module) (streams : List ByteStream) : List Task :=
  (modules.zip streams).map fun (module, stream) => ⟨variant, module, stream⟩

def tasks (mode : Mode) (modules : List Module) (streams : Streams) : List Task :=
  match mode with
  | .single => tasksFor .legacy modules streams.legacy
  | .dual => tasksFor .push0 modules streams.push0 ++ tasksFor .legacy modules streams.legacy

/-- What has been compiled for each kind of target, in the order in which it was, or the failure
that stopped it. -/
abbrev Progress := Variant → Except Failure (List CompiledModule)

section

variable (ctx : BuildContext) (compiler : Compiler) (plan : ProbePlan)

def compileTask (task : Task) (progress : Progress) : StateM Files.Tree Progress := fun files =>
  match progress task.variant with
  | .error _ => (progress, files)
  | .ok done =>
    let (result, files) :=
      compileModule ctx compiler plan task.variant task.module task.stream files
    (fun variant =>
      if variant = task.variant then result.map fun compiled => done ++ [compiled]
      else progress variant, files)

def compileTasks : List Task → Progress → StateM Files.Tree Progress
  | [], progress, files => (progress, files)
  | task :: rest, progress, files =>
    let (progress, files) := compileTask ctx compiler plan task progress files
    compileTasks rest progress files

end

def inOrder (modules : List Module) (done : List CompiledModule) : List CompiledModule :=
  modules.filterMap fun module => done.find? (·.module = module)

def Progress.image (layout : Layout) (modules : List Module) (progress : Progress)
    (variant : Variant) : Except Failure Image := do
  Image.assemble layout variant (inOrder modules (← progress variant))

def imagesInOrder (ctx : BuildContext) (compiler : Compiler) (mode : Mode) (modules : List Module)
    (order : List Task) (plan : ProbePlan) : Job (List Image) := fun files =>
  let (progress, files) := compileTasks ctx compiler plan order (fun _ => .ok []) files
  (mode.variants.mapM (progress.image ctx.layout modules), files)

def buildInOrder (ctx : BuildContext) (compiler : Compiler) (mode : Mode) (template : String)
    (modules : List Module) (order : List Task) : Job Artifacts :=
  Steps.unchecked.buildFrom ctx compiler mode template modules
    (imagesInOrder ctx compiler mode modules order)

theorem compileModule_module {ctx : BuildContext} {compiler : Compiler} {plan : ProbePlan}
    {variant : Variant} {module : Module} {stream : ByteStream} {files files' : Files.Tree}
    {compiled : CompiledModule}
    (h : compileModule ctx compiler plan variant module stream files = (.ok compiled, files')) :
    compiled.module = module :=
  (compileModule_ends (P := fun _ => True) (fun _ _ => trivial) (fun _ => trivial)
    (fun _ => trivial) (fun _ _ => trivial)
    fun _ _ => ⟨fun _ => trivial, fun _ => trivial⟩).returns (congrArg Prod.fst h)

theorem buildFrom_unchecked (ctx : BuildContext) (compiler : Compiler) (mode : Mode)
    (template : String) (modules : List Module) (images : ProbePlan → Job (List Image)) :
    Steps.unchecked.buildFrom ctx compiler mode template modules images =
      if modules.isEmpty then Work.fail (.config .noModules)
      else match ctx.threadFault? with
        | some fault => Work.fail fault
        | none => images (.make ctx.layout modules.length) >>=
          Steps.unchecked.deploy ctx compiler mode template := by
  unfold Steps.buildFrom
  by_cases hempty : modules.isEmpty
  · rw [if_pos hempty, if_pos hempty]
    rfl
  obtain ⟨i, hi⟩ : ∃ i, modules.length = i + 1 :=
    Nat.exists_eq_add_one.mpr (List.length_pos_iff.mpr (mt List.isEmpty_iff.mpr hempty))
  have hprobes : Steps.unchecked.probesFor (.make ctx.layout modules.length) modules.length =
      .ok (ctx.layout.probesPerModule * (i + 1)) := by
    rw [hi]
    exact congrArg (Except.mapError _) (ProbePlan.probesFor_make (Nat.lt_succ_self i))
  have hplan : Steps.unchecked.plan ctx.layout modules.length =
      .ok (.make ctx.layout modules.length) := rfl
  rewrite [if_neg hempty, if_neg hempty, hplan, Work.ofResult_ok_bind, hprobes,
    Work.ofResult_ok_bind]
  rfl

/-- There is a stream for each module that a mode compiles. -/
def Streams.Serve (streams : Streams) (mode : Mode) (modules : List Module) : Prop :=
  streams.legacy.length = modules.length ∧
    (mode = .dual → streams.push0.length = modules.length)

theorem mem_tasksFor {variant : Variant} {modules : List Module} {streams : List ByteStream}
    {task : Task} (h : task ∈ tasksFor variant modules streams) :
    task.variant = variant ∧ task.module ∈ modules := by
  obtain ⟨pair, hpair, rfl⟩ := List.mem_map.mp h
  exact ⟨rfl, (List.of_mem_zip hpair).1⟩

theorem module_mem_of_mem_tasks {mode : Mode} {modules : List Module} {streams : Streams}
    {task : Task} (h : task ∈ tasks mode modules streams) : task.module ∈ modules := by
  cases mode with
  | single => exact (mem_tasksFor h).2
  | dual =>
    obtain h | h := List.mem_append.mp h
    · exact (mem_tasksFor h).2
    · exact (mem_tasksFor h).2

theorem map_module_tasksFor {variant : Variant} {modules : List Module}
    {streams : List ByteStream} (h : streams.length = modules.length) :
    (tasksFor variant modules streams).map (·.module) = modules := by
  rw [tasksFor, List.map_map]
  exact List.map_fst_zip (Nat.le_of_eq h.symm)

theorem filter_tasksFor_self (variant : Variant) (modules : List Module)
    (streams : List ByteStream) : (tasksFor variant modules streams).filter (·.variant = variant) =
      tasksFor variant modules streams :=
  List.filter_eq_self.mpr fun _ h => decide_eq_true (mem_tasksFor h).1

theorem filter_tasksFor_of_ne {variant v : Variant} (hv : variant ≠ v) (modules : List Module)
    (streams : List ByteStream) : (tasksFor variant modules streams).filter (·.variant = v) = [] :=
  List.filter_eq_nil_iff.mpr fun _ h => by rw [(mem_tasksFor h).1]; simpa using hv

/-- Each kind of target that a mode builds for has one task for each module. -/
theorem filter_tasks {mode : Mode} {modules : List Module} {streams : Streams}
    (h : streams.Serve mode modules) {v : Variant} (hv : v ∈ mode.variants) :
    ((tasks mode modules streams).filter (·.variant = v)).map (·.module) = modules := by
  cases mode with
  | single =>
    obtain rfl := List.mem_singleton.mp hv
    rw [tasks, filter_tasksFor_self]
    exact map_module_tasksFor h.1
  | dual =>
    rw [tasks, List.filter_append]
    cases v with
    | push0 =>
      rw [filter_tasksFor_self, filter_tasksFor_of_ne (by decide), List.append_nil]
      exact map_module_tasksFor (h.2 rfl)
    | legacy =>
      rw [filter_tasksFor_self, filter_tasksFor_of_ne (by decide), List.nil_append]
      exact map_module_tasksFor h.1

section

variable (ctx : BuildContext) (compiler : Compiler) (plan : ProbePlan) {variant : Variant}
  {modules : List Module}

def compileAll (variant : Variant) (pairs : List (Module × ByteStream)) :
    Job (List CompiledModule) :=
  pairs.mapM fun (module, stream) => compileModule ctx compiler plan variant module stream

theorem compileAll_cons (module : Module) (stream : ByteStream)
    (pairs : List (Module × ByteStream)) :
    compileAll ctx compiler plan variant ((module, stream) :: pairs) = do
      let compiled ← compileModule ctx compiler plan variant module stream
      let rest ← compileAll ctx compiler plan variant pairs
      return compiled :: rest :=
  List.mapM_cons

variable {ctx compiler plan} in
theorem modules_of_compileAll {pairs : List (Module × ByteStream)} {files files' : Files.Tree}
    {done : List CompiledModule}
    (h : compileAll ctx compiler plan variant pairs files = (.ok done, files')) :
    done.map (·.module) = pairs.map (·.1) := by
  induction pairs generalizing files done with
  | nil =>
    cases h
    rfl
  | cons pair pairs ih =>
    rw [compileAll_cons] at h
    obtain ⟨compiled, middle, hfirst, h⟩ := Work.bind_eq_ok h
    obtain ⟨rest, _, hrest, h⟩ := Work.bind_eq_ok h
    cases h
    rw [List.map_cons, List.map_cons, ih hrest, compileModule_module hfirst]

theorem find?_module {done : List CompiledModule} {compiled : CompiledModule}
    (hmem : compiled ∈ done)
    (h : ∀ other ∈ done, other.module = compiled.module → other = compiled) :
    done.find? (·.module = compiled.module) = some compiled := by
  have hsome : (done.find? (·.module = compiled.module)).isSome :=
    List.find?_isSome.mpr ⟨compiled, hmem, decide_eq_true rfl⟩
  obtain ⟨found, hfound⟩ := Option.isSome_iff_exists.mp hsome
  have hmodule : found.module = compiled.module := by simpa using List.find?_some hfound
  rw [hfound, h found (List.mem_of_find?_eq_some hfound) hmodule]

theorem inOrder_self {done : List CompiledModule} (hdone : done.map (·.module) = modules)
    (hnodup : modules.Nodup) : inOrder modules done = done := by
  subst hdone
  rw [inOrder, List.filterMap_map]
  have hfind : ∀ compiled ∈ done,
      done.find? (·.module = compiled.module) = some compiled := fun compiled hmem =>
    find?_module hmem fun other hother => List.inj_on_of_nodup_map hnodup hother hmem
  exact (List.filterMap_congr hfind).trans List.filterMap_some

theorem compileTask_of_error {task : Task} {progress : Progress} {e : Failure}
    (h : progress task.variant = .error e) (files : Files.Tree) :
    compileTask ctx compiler plan task progress files = (progress, files) := by
  simp only [compileTask, h]

theorem compileTask_of_ok {task : Task} {progress : Progress} {done : List CompiledModule}
    (h : progress task.variant = .ok done) (files : Files.Tree) :
    compileTask ctx compiler plan task progress files =
      (fun v => if v = task.variant then
          (compileModule ctx compiler plan task.variant task.module task.stream files).1.map
            fun compiled => done ++ [compiled]
        else progress v,
        (compileModule ctx compiler plan task.variant task.module task.stream files).2) := by
  simp only [compileTask, h]
  rfl

theorem compileTasks_append (first second : List Task) (progress : Progress) (files : Files.Tree) :
    compileTasks ctx compiler plan (first ++ second) progress files =
      let (progress, files) := compileTasks ctx compiler plan first progress files
      compileTasks ctx compiler plan second progress files := by
  induction first generalizing progress files with
  | nil => rfl
  | cons task first ih => exact ih _ _

/-- A kind of target that has failed is left as it is. -/
theorem compileTasks_of_error {e : Failure} {progress : Progress} (h : progress variant = .error e)
    (pairs : List (Module × ByteStream)) (files : Files.Tree) :
    compileTasks ctx compiler plan (pairs.map fun (module, stream) => ⟨variant, module, stream⟩)
      progress files = (progress, files) := by
  induction pairs with
  | nil => rfl
  | cons pair pairs ih =>
    rw [List.map_cons, compileTasks, compileTask_of_error ctx compiler plan h]
    exact ih

/-- The tasks of one kind of target compile its modules one after the other. -/
theorem compileTasks_map {done : List CompiledModule} {progress : Progress}
    (h : progress variant = .ok done) (pairs : List (Module × ByteStream)) (files : Files.Tree) :
    compileTasks ctx compiler plan (pairs.map fun (module, stream) => ⟨variant, module, stream⟩)
      progress files =
      (fun v => if v = variant then
          (compileAll ctx compiler plan variant pairs files).1.map (done ++ ·) else progress v,
        (compileAll ctx compiler plan variant pairs files).2) := by
  induction pairs generalizing progress done files with
  | nil =>
    refine Prod.ext (funext fun v => ?_) rfl
    change progress v = if v = variant then .ok (done ++ []) else progress v
    split
    · rename_i hv
      rw [hv, h, List.append_nil]
    · rfl
  | cons pair pairs ih =>
    obtain ⟨module, stream⟩ := pair
    rw [List.map_cons, compileTasks, compileTask_of_ok ctx compiler plan h, compileAll_cons,
      Work.bind_apply]
    dsimp only
    obtain ⟨e | compiled, middle⟩ := compileModule ctx compiler plan variant module stream files
    · exact compileTasks_of_error ctx compiler plan (if_pos rfl) pairs middle
    · refine (ih (if_pos rfl) middle).trans ?_
      dsimp only
      rw [Work.bind_apply]
      obtain ⟨_ | rest, last⟩ := compileAll ctx compiler plan variant pairs middle
      · refine Prod.ext (funext fun v => ?_) rfl
        dsimp only
        split <;> rfl
      · refine Prod.ext (funext fun v => ?_) rfl
        dsimp only
        split
        · exact congrArg Except.ok (List.append_assoc _ _ _)
        · rfl

/-- An image that is assembled from what the tasks in their order have compiled. -/
theorem image_of_compileAll {streams : List ByteStream} {progress : Progress}
    {files : Files.Tree} (hnodup : modules.Nodup) (hlen : streams.length = modules.length)
    (h : progress variant = (compileAll ctx compiler plan variant (modules.zip streams) files).1) :
    buildImage ctx compiler plan variant modules streams files =
      (progress.image ctx.layout modules variant,
        (compileAll ctx compiler plan variant (modules.zip streams) files).2) := by
  have hbuild : buildImage ctx compiler plan variant modules streams =
      compileAll ctx compiler plan variant (modules.zip streams) >>= fun compiled files =>
        (Image.assemble ctx.layout variant compiled, files) := rfl
  rw [hbuild, Work.bind_apply, Progress.image, h]
  cases hall : compileAll ctx compiler plan variant (modules.zip streams) files with
  | mk result last =>
    cases result with
    | error e => rfl
    | ok done =>
      have hmodules := modules_of_compileAll hall
      rw [List.map_fst_zip (Nat.le_of_eq hlen.symm)] at hmodules
      change (Image.assemble ctx.layout variant done, last) =
        (Image.assemble ctx.layout variant (inOrder modules done), last)
      rw [inOrder_self hmodules hnodup]

theorem compileTasks_tasksFor {progress : Progress} (h : progress variant = .ok [])
    (streams : List ByteStream) (files : Files.Tree) :
    compileTasks ctx compiler plan (tasksFor variant modules streams) progress files =
      (fun v => if v = variant then
          (compileAll ctx compiler plan variant (modules.zip streams) files).1 else progress v,
        (compileAll ctx compiler plan variant (modules.zip streams) files).2) := by
  refine (compileTasks_map ctx compiler plan h (modules.zip streams) files).trans ?_
  cases (compileAll ctx compiler plan variant (modules.zip streams) files).1 <;> rfl

theorem compileTasks_single {streams : Streams} (hnodup : modules.Nodup)
    (h : streams.Serve .single modules) (files : Files.Tree) : ∃ progress last,
    compileTasks ctx compiler plan (tasks .single modules streams) (fun _ => .ok []) files =
        (progress, last) ∧
      buildImage ctx compiler plan .legacy modules streams.legacy files =
        (progress.image ctx.layout modules .legacy, last) := by
  refine ⟨_, _, compileTasks_tasksFor ctx compiler plan rfl streams.legacy files, ?_⟩
  exact image_of_compileAll ctx compiler plan hnodup h.1 (if_pos rfl)

theorem compileTasks_dual {streams : Streams} (hnodup : modules.Nodup)
    (h : streams.Serve .dual modules) (files : Files.Tree) : ∃ progress middle last,
    compileTasks ctx compiler plan (tasks .dual modules streams) (fun _ => .ok []) files =
        (progress, last) ∧
      buildImage ctx compiler plan .push0 modules streams.push0 files =
        (progress.image ctx.layout modules .push0, middle) ∧
      buildImage ctx compiler plan .legacy modules streams.legacy middle =
        (progress.image ctx.layout modules .legacy, last) := by
  have htasks := compileTasks_append ctx compiler plan (tasksFor .push0 modules streams.push0)
    (tasksFor .legacy modules streams.legacy) (fun _ => .ok []) files
  rw [compileTasks_tasksFor ctx compiler plan rfl] at htasks
  refine ⟨_, (compileAll ctx compiler plan .push0 (modules.zip streams.push0) files).2, _,
    htasks.trans (compileTasks_tasksFor ctx compiler plan rfl streams.legacy _), ?_, ?_⟩
  · exact image_of_compileAll ctx compiler plan hnodup (h.2 rfl) rfl
  · exact image_of_compileAll ctx compiler plan hnodup h.1 rfl

theorem images_eq_imagesInOrder {mode : Mode} {streams : Streams} (hnodup : modules.Nodup)
    (h : streams.Serve mode modules) :
    Steps.unchecked.images ctx compiler plan modules streams mode =
      imagesInOrder ctx compiler mode modules (tasks mode modules streams) plan := by
  funext files
  unfold imagesInOrder
  cases mode with
  | single =>
    obtain ⟨progress, last, htasks, himage⟩ := compileTasks_single ctx compiler plan hnodup h files
    rw [htasks]
    change (buildImage ctx compiler plan .legacy modules streams.legacy >>= fun image =>
      pure [image]) files = _
    rw [Work.bind_apply, himage]
    simp only [Mode.variants, List.mapM_cons]
    cases progress.image ctx.layout modules .legacy <;> rfl
  | dual =>
    obtain ⟨progress, middle, last, htasks, hpush0, hlegacy⟩ := compileTasks_dual ctx compiler plan
      hnodup h files
    rw [htasks]
    change (Work.both (buildImage ctx compiler plan .push0 modules streams.push0)
      (buildImage ctx compiler plan .legacy modules streams.legacy) >>= fun images =>
        pure [images.1, images.2]) files = _
    rw [Work.bind_apply, Work.both, hpush0]
    dsimp only
    rw [hlegacy]
    simp only [Mode.variants, List.mapM_cons]
    cases progress.image ctx.layout modules .push0 with
    | error e => rfl
    | ok push0 => cases progress.image ctx.layout modules .legacy <;> rfl

theorem build_eq_buildInOrder {mode : Mode} {template : String} {streams : Streams}
    (hnodup : modules.Nodup) (h : streams.Serve mode modules) :
    build ctx compiler mode template modules streams =
      buildInOrder ctx compiler mode template modules (tasks mode modules streams) :=
  congrArg (Steps.unchecked.buildFrom ctx compiler mode template modules)
    (funext fun plan => images_eq_imagesInOrder ctx compiler plan hnodup h)

end

end ImageLinker
