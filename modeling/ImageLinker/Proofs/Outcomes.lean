import ImageLinker.Build
import ImageLinker.Proofs.Temporaries

/-! What holds of every value that work returns, and of every failure that it ends with. -/
namespace ImageLinker

namespace Work

variable {ε α β : Type}

theorem bind_apply (x : Work ε α) (f : α → Work ε β) (files : Files.Tree) :
    (x >>= f) files = match x files with
      | (.ok a, files) => f a files
      | (.error e, files) => (.error e, files) := by
  change ExceptT.bindCont f (x files).1 (x files).2 = _
  obtain ⟨_ | a, files'⟩ := x files <;> rfl

theorem ofResult_ok_bind (a : α) (f : α → Work ε β) : (ofResult (.ok a) >>= f) = f a := rfl

/-- What success of a piece of work followed by another says of both. -/
theorem bind_eq_ok {x : Work ε α} {f : α → Work ε β} {files files' : Files.Tree} {b : β}
    (h : (x >>= f) files = (.ok b, files')) :
    ∃ a middle, x files = (.ok a, middle) ∧ f a middle = (.ok b, files') := by
  rw [bind_apply] at h
  split at h
  · rename_i a middle hx
    exact ⟨a, middle, hx, h⟩
  · cases h

theorem both_fst (x : Work ε α) (y : Work ε β) (files : Files.Tree) : (both x y files).1 =
    (x files).1.bind fun a => (y (x files).2).1.map fun b => (a, b) := rfl

variable {Q : α → Prop} {R : β → Prop} {P : ε → Prop}

/-- Whatever the files are, one property holds of what work returns and another one of what ends
it. -/
structure Ends (x : Work ε α) (Q : α → Prop) (P : ε → Prop) : Prop where
  returns {files : Files.Tree} {a : α} (h : (x files).1 = .ok a) : Q a
  fails {files : Files.Tree} {e : ε} (h : (x files).1 = .error e) : P e

namespace Ends

theorem returned {x : Work ε α} (hx : x.Ends Q P) :
    x.Ends (fun a => Q a ∧ ∃ files, (x files).1 = .ok a) P where
  returns {files _} h := ⟨hx.returns h, files, h⟩
  fails h := hx.fails h

theorem pure {a : α} (h : Q a) : (Pure.pure a : Work ε α).Ends Q P where
  returns heq := by
    cases heq
    exact h
  fails heq := by cases heq

theorem fail [Coe LinkError ε] {fault : LinkError} (h : P fault) :
    (Work.fail fault : Work ε α).Ends Q P where
  returns heq := by cases heq
  fails heq := by
    cases heq
    exact h

theorem bind {x : Work ε α} {f : α → Work ε β} (hx : x.Ends Q P) (hf : ∀ a, Q a → (f a).Ends R P) :
    (x >>= f).Ends R P where
  returns {files b} h := by
    rw [Work.bind_apply] at h
    obtain ⟨⟨result, middle⟩, hrun⟩ : ∃ run, x files = run := ⟨_, rfl⟩
    rw [hrun] at h
    cases result with
    | error e => cases h
    | ok a => exact (hf a (hx.returns (congrArg Prod.fst hrun))).returns h
  fails {files e} h := by
    rw [Work.bind_apply] at h
    obtain ⟨⟨result, middle⟩, hrun⟩ : ∃ run, x files = run := ⟨_, rfl⟩
    rw [hrun] at h
    cases result with
    | error e' =>
      cases h
      exact hx.fails (congrArg Prod.fst hrun)
    | ok a => exact (hf a (hx.returns (congrArg Prod.fst hrun))).fails h

theorem ofResult {result : Except ε α} (hok : ∀ a, result = .ok a → Q a)
    (herror : ∀ e, result = .error e → P e) : Ends (Work.ofResult result) Q P where
  returns h := hok _ h
  fails h := herror _ h

theorem ofResult_mapError {δ : Type} {result : Except δ α} {f : δ → ε}
    (hok : ∀ a, result = .ok a → Q a) (herror : ∀ d, result = .error d → P (f d)) :
    Ends (Work.ofResult (result.mapError f)) Q P := by
  cases result with
  | error d => exact ofResult nofun fun e he => Except.error.inj he ▸ herror d rfl
  | ok a => exact pure (hok a rfl)

theorem ofExcept [Coe LinkError ε] {result : Except LinkError α}
    (hok : ∀ a, result = .ok a → Q a) (herror : ∀ fault, result = .error fault → P fault) :
    (Work.ofExcept result : Work ε α).Ends Q P :=
  ofResult_mapError hok herror

theorem readText [Coe LinkError ε] {path : String}
    (h : ∀ fault, P (LinkError.io (.read path) fault)) :
    (Work.readText path : Work ε String).Ends (fun _ => True) P where
  returns _ := trivial
  fails {files e} heq := by
    unfold Work.readText at heq
    cases hread : files.readText path with
    | error fault =>
      rw [hread] at heq
      cases heq
      exact h fault
    | ok text =>
      rw [hread] at heq
      cases heq

theorem withSource [Coe LinkError ε] {dir : String} {a : Files.Attempt} {source : List UInt8}
    {work : String → Work ε α} (hio : ∀ step fault, P (LinkError.io step fault))
    (hwork : ∀ path, (work path).Ends Q P) :
    (Work.withSource dir a source work).Ends Q P where
  returns {files b} h := by
    cases htemporary : files.temporary? dir "tmp" ".yul" source a with
    | none =>
      obtain ⟨step, fault, -, hall⟩ := Work.exists_withSource_of_none htemporary
      rw [hall] at h
      cases h
    | some opened =>
      rw [Work.withSource_of_some htemporary] at h
      exact (hwork _).returns h
  fails {files e} h := by
    cases htemporary : files.temporary? dir "tmp" ".yul" source a with
    | none =>
      obtain ⟨step, fault, -, hall⟩ := Work.exists_withSource_of_none htemporary
      rw [hall] at h
      cases h
      exact hio step fault
    | some opened =>
      rw [Work.withSource_of_some htemporary] at h
      exact (hwork _).fails h

/-- Work on every element of a list returns as many values as there are elements. -/
theorem mapM {f : α → Work ε β} {l : List α} (hf : ∀ a ∈ l, (f a).Ends R P) :
    (l.mapM f).Ends (fun done => done.length = l.length ∧ ∀ b ∈ done, R b) P := by
  induction l with
  | nil => exact pure ⟨rfl, by simp⟩
  | cons a rest ih =>
    rw [List.mapM_cons]
    refine (hf a List.mem_cons_self).bind fun b hb => ?_
    refine (ih fun c hc => hf c (List.mem_cons_of_mem _ hc)).bind fun done hdone => ?_
    refine pure ⟨?_, List.forall_mem_cons.mpr ⟨hb, hdone.2⟩⟩
    rw [List.length_cons, List.length_cons, hdone.1]

theorem both {x : Work ε α} {y : Work ε β} (hx : x.Ends Q P) (hy : y.Ends R P) :
    (Work.both x y).Ends (fun pair => Q pair.1 ∧ R pair.2) P where
  returns {files pair} h := by
    rw [Work.both_fst] at h
    cases hfirst : (x files).1 with
    | error e =>
      rw [hfirst] at h
      cases h
    | ok a =>
      cases hsecond : (y (x files).2).1 with
      | error e =>
        rw [hfirst, hsecond] at h
        cases h
      | ok b =>
        rw [hfirst, hsecond] at h
        cases h
        exact ⟨hx.returns hfirst, hy.returns hsecond⟩
  fails {files e} h := by
    rw [Work.both_fst] at h
    cases hfirst : (x files).1 with
    | error e' =>
      rw [hfirst] at h
      cases h
      exact hx.fails hfirst
    | ok a =>
      cases hsecond : (y (x files).2).1 with
      | error e' =>
        rw [hfirst, hsecond] at h
        cases h
        exact hy.fails hsecond
      | ok b =>
        rw [hfirst, hsecond] at h
        cases h

end Ends

end Work

theorem CompiledModule.module_ofOutput {module : Module} {variant : Variant}
    {probes : List Probe} {output : List UInt8} {compiled : CompiledModule}
    (h : ofOutput module variant probes output = .ok compiled) :
    compiled.module = module := by
  unfold ofOutput at h
  split at h
  · cases h
  · dsimp only at h
    split at h <;> cases h <;> rfl

theorem CompiledModule.error_of_ofOutput {module : Module} {variant : Variant}
    {probes : List Probe} {output : List UInt8} {fault : LinkError}
    (h : ofOutput module variant probes output = .error fault) :
    fault = .sentinelNotFound module.path module.sectionIndex := by
  unfold ofOutput at h
  split at h
  · cases h
    rfl
  · cases variant <;> cases h

section

variable {ctx : BuildContext} {compiler : Compiler} {P : Failure → Prop}

theorem compileSource_ends {attempt : Files.Attempt} {source : List UInt8} {version : String}
    (hio : ∀ step fault, P (.error (.io step fault)))
    (hcompile : ∀ path version, (compiler.compileToBytes path version).Ends (fun _ => True) P) :
    (Steps.unchecked.compileSource ctx compiler attempt source version).Ends (fun _ => True) P :=
  Work.Ends.withSource hio fun path => hcompile path version

/-- A module comes to code of its own, or fails at its files, at what is drawn for it, at its
source or at what is printed for it. -/
theorem compileModule_ends {plan : ProbePlan} {variant : Variant} {module : Module}
    {stream : ByteStream} (hio : ∀ step fault, P (.error (.io step fault)))
    (hmisuse : ∀ misuse, P (.misuse misuse))
    (hobject : ∀ path, P (.error (.runtimeObjectNotFound path)))
    (hsentinel : ∀ path index, P (.error (.sentinelNotFound path index)))
    (hcompile : ∀ path version, (compiler.compileToBytes path version).Ends (fun _ => True) P) :
    (compileModule ctx compiler plan variant module stream).Ends (·.module = module) P := by
  unfold compileModule Steps.compileModule
  refine (Work.Ends.readText (hio _)).bind fun source _ => ?_
  refine (Work.Ends.ofResult_mapError (Q := fun _ => True) (fun _ _ => trivial)
    fun misuse _ => hmisuse misuse).bind fun drawn _ => ?_
  obtain ⟨probes, rest⟩ := drawn
  refine (Work.Ends.ofResult (Q := fun _ => True) (fun _ _ => trivial) nofun).bind
    fun injected? _ => ?_
  cases injected? with
  | none => exact .fail (hobject _)
  | some injected =>
    refine (compileSource_ends hio hcompile).bind fun output _ => ?_
    refine Work.Ends.ofResult_mapError (fun _ h => CompiledModule.module_ofOutput h)
      fun fault h => ?_
    rw [CompiledModule.error_of_ofOutput h]
    exact hsentinel _ _

end

end ImageLinker
