import Mathlib.Data.List.Forall2
import Mathlib.Data.List.Nodup
import ImageLinker.Artifacts.Writing
import ImageLinker.Proofs.Places

/-!
Writing artifacts is all or nothing, at whatever file the system fails a call. A call that fails
leaves the files as making its directory has left them; a call that succeeds puts every text in its
place and touches nothing else; and over a sequence of calls every artifact holds what the last
successful call for it wrote.
-/
namespace ImageLinker.Artifacts

open Files Files.Tree

/-- A name that a text can be published under: no temporary file has it. -/
structure IsPublic (name : String) : Prop extends IsName name where
  slash : '/' ∉ name.toList
  nul : '\x00' ∉ name.toList
  visible : name.toList.head? ≠ some '.'

theorem isPublic_runtimeFileName (mode : Mode) (variant : Variant) :
    IsPublic (runtimeFileName mode variant) := by
  cases mode <;> cases variant <;>
    exact ⟨⟨by decide, by decide, by decide⟩, by decide, by decide, by decide⟩

theorem isPublic_initcode : IsPublic "initcode.txt" :=
  ⟨⟨by decide, by decide, by decide⟩, by decide, by decide, by decide⟩

theorem isPublic_of_mem_files {a : Artifacts} {file : String × String} (h : file ∈ a.files) :
    IsPublic file.1 := by
  rcases List.mem_append.mp h with hruntime | hinitcode
  · obtain ⟨image, _, rfl⟩ := List.mem_map.mp hruntime
    exact isPublic_runtimeFileName a.mode image.variant
  · cases List.mem_singleton.mp hinitcode
    exact isPublic_initcode

/-- A place that a staged file can stand at. -/
def IsHidden (place : Place) : Prop := ∃ dir middle, place = dir ++ [".tmp" ++ middle]

theorem IsHidden.ne {place dir : Place} {name : String} (h : IsHidden place)
    (hname : IsPublic name) : place ≠ dir ++ [name] := by
  rintro rfl
  obtain ⟨dir', middle, heq⟩ := h
  obtain ⟨_, hlast⟩ := List.append_inj' heq rfl
  refine hname.visible ?_
  rw [List.singleton_inj.mp hlast, String.toList_append]
  rfl

theorem IsHidden.ne_nil {place : Place} (h : IsHidden place) : place ≠ [] := by
  obtain ⟨dir, n, rfl⟩ := h
  exact List.append_ne_nil_of_right_ne_nil _ (List.cons_ne_nil _ _)

section Phases

variable {dir : String} {place : Place} {texts : List (String × String)} {staged : List Staged}
  {files files' : Tree}

def contents (text : String) : Entry := .file text.toUTF8.toList false

/-- A text waits under another name for its place. -/
structure Waits (dir : String) (place : Place) (files : Tree) (s : Staged)
    (file : String × String) : Prop where
  target : s.target = Path.join dir file.1
  targetPlace : s.targetPlace = place ++ [file.1]
  hidden : IsHidden s.temporaryPlace
  there : files.get? s.temporaryPlace = some (contents file.2)

/-- Texts wait for their places, and nothing else has changed. -/
structure Staging (dir : String) (place : Place) (texts : List (String × String))
    (staged : List Staged) (files files' : Tree) : Prop where
  waits : List.Forall₂ (Waits dir place files') staged texts
  distinct : (staged.map (·.temporaryPlace)).Nodup
  fresh : ∀ p ∈ staged.map (·.temporaryPlace), files.get? p = none
  elsewhere : ∀ p ∉ staged.map (·.temporaryPlace), files'.get? p = files.get? p
  workingDirectory : files'.workingDirectory = files.workingDirectory

theorem Staging.nil (dir : String) (place : Place) (files : Tree) :
    Staging dir place [] [] files files where
  waits := .nil
  distinct := List.nodup_nil
  fresh _ hp := absurd hp List.not_mem_nil
  elsewhere _ _ := rfl
  workingDirectory := rfl

theorem Staging.cons {name text : String} {temporary : Place} {later : Tree}
    (hfresh : files.get? temporary = none) (hhidden : IsHidden temporary)
    (h : Staging dir place texts staged (files.set temporary (contents text)) later) :
    Staging dir place ((name, text) :: texts)
      (⟨Path.join dir name, place ++ [name], temporary⟩ :: staged) files later := by
  have hset (p : Place) : (files.set temporary (contents text)).get? p =
      if p = temporary then some (contents text) else files.get? p := get?_set hhidden.ne_nil p
  have hout : temporary ∉ staged.map (·.temporaryPlace) := fun hmem => by
    have hnone := h.fresh _ hmem
    rw [hset, if_pos rfl] at hnone
    cases hnone
  refine ⟨.cons ⟨rfl, rfl, hhidden, ?_⟩ h.waits, ?_, ?_, ?_, h.workingDirectory⟩
  · rw [h.elsewhere _ hout, hset, if_pos rfl]
  · rw [List.map_cons]
    exact List.nodup_cons.mpr ⟨hout, h.distinct⟩
  · rw [List.map_cons]
    refine List.forall_mem_cons.mpr ⟨hfresh, fun p hp => ?_⟩
    have hnone := h.fresh p hp
    have hne : p ≠ temporary := fun heq => hout (heq ▸ hp)
    rwa [hset, if_neg hne] at hnone
  · intro p hp
    rw [List.map_cons] at hp
    obtain ⟨hne, hp⟩ := List.ne_and_not_mem_of_not_mem_cons hp
    rw [h.elsewhere p hp, hset, if_neg hne]

theorem slash_notMem_of_isAlphanum {text : String} (h : ∀ c ∈ text.toList, c.isAlphanum) :
    '/' ∉ text.toList := fun hmem => absurd (h _ hmem) (by decide)

theorem isHidden_of_temporary? {bytes : List UInt8} {a : Attempt} {path : String}
    (h : files.temporary? dir ".tmp" "" bytes a = some (path, place, files')) :
    IsHidden place := by
  obtain ⟨hcreate, -⟩ := temporary?_eq_some h
  obtain ⟨⟨middle, hmiddle, hresolve⟩, -⟩ := createTemporary_eq_ok hcreate
  have hslash := slash_notMem_of_isAlphanum (a.alphanumeric middle hmiddle)
  have hbase : Path.ofNames files.workingDirectory ≠ "" := by simp [Path.ofNames]
  have hname : ∀ other : String, other.toList.length < 4 → ".tmp" ++ middle ++ "" ≠ other := by
    rintro _ hshort rfl
    simp at hshort
    omega
  obtain ⟨parent, hplace⟩ := exists_parent_of_resolve_join (Path.join_ne_empty hbase dir)
    (by simpa using hslash) (not_or.mpr ⟨hname _ (by decide), hname _ (by decide)⟩)
    (hname _ (by decide)) hresolve
  exact ⟨parent, middle, by rw [hplace, String.append_empty]⟩

section Stage

variable {name text : String} {attempts : Nat → Attempt}

theorem stage_cons_of_none
    (h : files.temporary? dir ".tmp" "" text.toUTF8.toList (attempts 0) = none) : ∃ fault,
      stage dir place ((name, text) :: texts) attempts files =
        (.error (.io (.stage name) fault), files) := by
  unfold stage
  rcases temporary?_eq_none h with
    ⟨fault, hcreate⟩ | ⟨path, temporary, fault, taken, hcreate, hfree, hshortage⟩
  · exact ⟨fault, by simp only [hcreate]⟩
  · obtain ⟨short, hfill, herase⟩ := fill_of_some hshortage hfree path text.toUTF8.toList
    exact ⟨.located fault path, by simp only [hcreate, hfill, herase]⟩

theorem stage_cons_of_some {path : String} {temporary : Place} {next : Tree}
    (h : files.temporary? dir ".tmp" "" text.toUTF8.toList (attempts 0) =
      some (path, temporary, next)) :
    stage dir place ((name, text) :: texts) attempts files =
      match stage dir place texts (fun n => attempts (n + 1)) next with
      | (.ok staged, files) =>
        (.ok (⟨Path.join dir name, place ++ [name], temporary⟩ :: staged), files)
      | (.error e, files) => (.error e, files.erase temporary) := by
  obtain ⟨hcreate, hshortage, -, rfl⟩ := temporary?_eq_some h
  conv_lhs => unfold stage
  cases hrest : stage dir place texts (fun n => attempts (n + 1))
    (files.set temporary (.file text.toUTF8.toList false)) with
  | mk result later => cases result <;> simp only [hcreate, fill_of_none hshortage, hrest]

end Stage

/-- The system makes the first files that it is asked for, and takes all their bytes. -/
def Met (attempts : Nat → Attempt) (count : Nat) : Prop :=
  ∀ k < count, (attempts k).refusal? = none ∧ (attempts k).shortage? = none

/-- The texts ahead of one wait for their places by the time when no file is to be had for it. -/
def Unmet (dir : String) (place : Place) (texts : List (String × String))
    (attempts : Nat → Attempt) (files : Tree) (k : Nat) (name : String) : Prop :=
  ∃ text staged now, texts[k]? = some (name, text) ∧
    Staging dir place (texts.take k) staged files now ∧
    now.temporary? dir ".tmp" "" text.toUTF8.toList (attempts k) = none

theorem stage_spec (dir : String) (place : Place) (texts : List (String × String))
    (attempts : Nat → Attempt) (files : Tree) :
    (∃ k name fault, Unmet dir place texts attempts files k name ∧
      stage dir place texts attempts files = (.error (.io (.stage name) fault), files)) ∨
    ∃ staged files', stage dir place texts attempts files = (.ok staged, files') ∧
      Staging dir place texts staged files files' ∧ Met attempts texts.length := by
  induction texts generalizing attempts files with
  | nil => exact .inr ⟨[], files, rfl, .nil dir place files, nofun⟩
  | cons file rest ih =>
    obtain ⟨name, text⟩ := file
    cases htemporary : files.temporary? dir ".tmp" "" text.toUTF8.toList (attempts 0) with
    | none =>
      obtain ⟨fault, hstage⟩ := stage_cons_of_none htemporary
      exact .inl ⟨0, name, fault, ⟨text, [], files, rfl, .nil dir place files, htemporary⟩, hstage⟩
    | some opened =>
      obtain ⟨path, temporary, next⟩ := opened
      obtain ⟨hcreate, hshortage, hfree, rfl⟩ := temporary?_eq_some htemporary
      have hhidden := isHidden_of_temporary? htemporary
      rw [stage_cons_of_some htemporary]
      rcases ih (fun n => attempts (n + 1)) (files.set temporary (.file text.toUTF8.toList false))
        with ⟨k, name', fault, ⟨text', staged, now, hk, hstaging, hunmet⟩, hrest⟩ |
          ⟨staged, later, hrest, hstaging, hmet⟩
      · rw [hrest]
        refine .inl ⟨k + 1, name', fault,
          ⟨text', _, now, hk, hstaging.cons hfree hhidden, hunmet⟩, ?_⟩
        dsimp only
        rw [erase_set hfree]
      · rw [hrest]
        refine .inr ⟨_, later, rfl, hstaging.cons hfree hhidden, fun k hk => ?_⟩
        cases k with
        | zero => exact ⟨(createTemporary_eq_ok hcreate).2.2.1, hshortage⟩
        | succ k => exact hmet k (Nat.lt_of_succ_lt_succ hk)

def textFor? (place : Place) (texts : List (String × String)) (p : Place) : Option String :=
  (texts.reverse.find? fun file => place ++ [file.1] = p).map (·.2)

theorem textFor?_cons (place : Place) (file : String × String) (texts : List (String × String))
    (p : Place) : textFor? place (file :: texts) p =
      (textFor? place texts p).or (if place ++ [file.1] = p then some file.2 else none) := by
  rw [textFor?, List.reverse_cons, List.find?_append, Option.map_or, textFor?]
  congr 1
  by_cases h : place ++ [file.1] = p
  · rw [List.find?_singleton, if_pos h, if_pos (decide_eq_true h), Option.map_some]
  · rw [List.find?_singleton, if_neg h, if_neg (by simpa using h), Option.map_none]

theorem textFor?_eq_some {p : Place} {text : String} (h : textFor? place texts p = some text) :
    ∃ file ∈ texts, p = place ++ [file.1] ∧ file.2 = text := by
  obtain ⟨file, hfind, htext⟩ := Option.map_eq_some_iff.mp h
  have hp := List.find?_some hfind
  refine ⟨file, List.mem_reverse.mp (List.mem_of_find?_eq_some hfind), ?_, htext⟩
  simpa [eq_comm] using hp

theorem textFor?_eq_none_iff {p : Place} :
    textFor? place texts p = none ↔ ∀ file ∈ texts, p ≠ place ++ [file.1] := by
  rw [textFor?, Option.map_eq_none_iff, List.find?_eq_none]
  simp only [List.mem_reverse, decide_eq_true_eq, ne_comm, ne_eq]

theorem textFor?_of_mem {file : String × String} (h : file ∈ texts) :
    ∃ text, textFor? place texts (place ++ [file.1]) = some text ∧
      ((texts.map (·.1)).Nodup → text = file.2) := by
  cases htext : textFor? place texts (place ++ [file.1]) with
  | none => exact absurd rfl (textFor?_eq_none_iff.mp htext file h)
  | some text =>
    refine ⟨text, rfl, fun hnodup => ?_⟩
    obtain ⟨other, hother, hplace, rfl⟩ := textFor?_eq_some htext
    have hname : file.1 = other.1 := List.singleton_inj.mp (List.append_cancel_left hplace)
    rw [List.inj_on_of_nodup_map hnodup h hother hname]

theorem textFor?_of_hidden (hnames : ∀ file ∈ texts, IsPublic file.1) {p : Place}
    (hp : IsHidden p) : textFor? place texts p = none :=
  textFor?_eq_none_iff.mpr fun file hfile => hp.ne (hnames file hfile)

def published (place : Place) (texts : List (String × String)) (staged : List Staged)
    (files : Tree) (p : Place) : Option Entry :=
  if p ∈ staged.map (·.temporaryPlace) then none
  else ((textFor? place texts p).map contents).or (files.get? p)

theorem Waits.rename {s : Staged} {file : String × String} (hs : Waits dir place files s file)
    (hfree : files.get? s.targetPlace ≠ some .directory) :
    ∃ next, files.rename s.temporaryPlace s.targetPlace = .ok next ∧
      next.workingDirectory = files.workingDirectory ∧
      ∀ p, next.get? p = if p = s.targetPlace then some (contents file.2)
        else if p = s.temporaryPlace then none else files.get? p := by
  refine ⟨(files.erase s.temporaryPlace).set s.targetPlace (contents file.2), ?_, rfl, fun p => ?_⟩
  · rw [Tree.rename, hs.there]
    split
    · rename_i hdir
      exact absurd hdir hfree
    · rename_i entry hentry _
      cases hentry
      rfl
    · rename_i hnone _
      cases hnone
  · rw [get?_set (by rw [hs.targetPlace]; simp), get?_erase hs.hidden.ne_nil]

theorem publish_spec (hwaits : List.Forall₂ (Waits dir place files) staged texts)
    (hdistinct : (staged.map (·.temporaryPlace)).Nodup)
    (hnames : ∀ file ∈ texts, IsPublic file.1)
    (hfree : ∀ file ∈ texts, files.get? (place ++ [file.1]) ≠ some .directory) :
    ∃ after, publish staged files = (.ok (texts.map (Path.join dir ·.1)), after) ∧
      after.workingDirectory = files.workingDirectory ∧
      ∀ p, after.get? p = published place texts staged files p := by
  induction staged generalizing files texts with
  | nil =>
    cases hwaits
    exact ⟨files, rfl, rfl, fun _ => rfl⟩
  | cons s staged ih =>
    cases hwaits with
    | @cons _ file _ texts hs hrest =>
    obtain ⟨hfile, hnames⟩ := List.forall_mem_cons.mp hnames
    obtain ⟨hfreeFile, hfree⟩ := List.forall_mem_cons.mp hfree
    obtain ⟨hout, hdistinct⟩ := List.nodup_cons.mp hdistinct
    obtain ⟨next, hrename, hdirectory, hnext⟩ := hs.rename (hs.targetPlace ▸ hfreeFile)
    have hwaits : List.Forall₂ (Waits dir place next) staged texts := by
      have hothers : ∀ later ∈ staged, later.temporaryPlace ≠ s.temporaryPlace := fun later hl h =>
        hout (List.mem_map.mpr ⟨later, hl, h⟩)
      refine ((List.forall₂_and_left staged texts).mpr ⟨hothers, hrest⟩).imp ?_
      rintro later file' ⟨hne, hlater⟩
      refine ⟨hlater.target, hlater.targetPlace, hlater.hidden, ?_⟩
      rw [hnext, if_neg (hs.targetPlace ▸ hlater.hidden.ne hfile), if_neg hne, hlater.there]
    have hfreeNext : ∀ file ∈ texts, next.get? (place ++ [file.1]) ≠ some .directory := by
      intro later hlater
      rw [hnext]
      split_ifs
      · exact nofun
      · exact nofun
      · exact hfree later hlater
    obtain ⟨after, hpublish, hafterDirectory, hafter⟩ := ih hwaits hdistinct hnames hfreeNext
    refine ⟨after, ?_, hafterDirectory.trans hdirectory, fun p => ?_⟩
    · rw [publish, hrename]
      dsimp only
      rw [hpublish, hs.target]
      rfl
    · rw [hafter, published, published, hnext, textFor?_cons, hs.targetPlace, List.map_cons]
      have hfileNe : s.temporaryPlace ≠ place ++ [file.1] := hs.hidden.ne hfile
      by_cases hmem : p ∈ staged.map (·.temporaryPlace)
      · rw [if_pos hmem, if_pos (List.mem_cons_of_mem _ hmem)]
      · rw [if_neg hmem]
        by_cases htemp : p = s.temporaryPlace
        · subst htemp
          rw [if_pos List.mem_cons_self, textFor?_of_hidden hnames hs.hidden, if_neg hfileNe,
            if_pos rfl]
          rfl
        · rw [if_neg (List.not_mem_cons_of_ne_of_not_mem htemp hmem), if_neg htemp, Option.map_or,
            Option.or_assoc]
          congr 1
          by_cases hplace : p = place ++ [file.1]
          · rw [if_pos hplace, if_pos hplace.symm]
            rfl
          · rw [if_neg hplace, if_neg (Ne.symm hplace)]
            rfl

/-- The failures ahead of the first file that is put in its place. There may be staged files by
then. -/
inductive Early (dir : String) (texts : List (String × String)) (attempts : Nat → Attempt)
    (made : Tree) : LinkError → Prop where
  | directory (fault : Fault) : Early dir texts attempts made (.io (.createDirectory dir) fault)
  | obstructed (name : String) :
      Early dir texts attempts made (.io (.obstructed (Path.join dir name)) .directoryInTheWay)
  | stage {place : Place} {k : Nat} {name : String} (fault : Fault)
      (h : Unmet dir place texts attempts made k name) :
      Early dir texts attempts made (.io (.stage name) fault)

/-- Texts stand in the directory that a path leads to, and nothing else has changed. -/
structure Published (dir : String) (texts : List (String × String)) (made after : Tree)
    (place : Place) : Prop where
  resolves : made.resolve (if dir.isEmpty then "." else dir) = .ok place
  directory : dir ≠ "" → made.get? place = some .directory
  free : ∀ file ∈ texts, made.get? (place ++ [file.1]) ≠ some .directory
  entries : ∀ p, after.get? p = ((textFor? place texts p).map contents).or (made.get? p)
  workingDirectory : after.workingDirectory = made.workingDirectory

theorem Published.get?_directory {made after : Tree} (h : Published dir texts made after place)
    {p : Place} (hp : made.get? p = some .directory) : after.get? p = some .directory := by
  rw [h.entries, hp]
  cases htext : textFor? place texts p with
  | none => rfl
  | some text =>
    obtain ⟨file, hfile, rfl, _⟩ := textFor?_eq_some htext
    exact absurd hp (h.free file hfile)

theorem free_of_obstacle? {names : List String} (h : obstacle? place names files = none) :
    ∀ name ∈ names, files.get? (place ++ [name]) ≠ some .directory := by
  intro name hname
  simpa using List.find?_eq_none.mp h name hname

theorem Staging.published {made : Tree} (h : Staging dir place texts staged made files)
    (hnames : ∀ file ∈ texts, IsPublic file.1)
    (hfree : ∀ file ∈ texts, made.get? (place ++ [file.1]) ≠ some .directory) :
    ∃ after, publish staged files = (.ok (texts.map (Path.join dir ·.1)), after) ∧
      after.workingDirectory = made.workingDirectory ∧
      ∀ p, after.get? p = ((textFor? place texts p).map contents).or (made.get? p) := by
  have hhidden : ∀ p ∈ staged.map (·.temporaryPlace), IsHidden p := by
    have hboth := h.waits.imp fun _ _ hs => And.intro hs.hidden trivial
    exact List.forall_mem_map.mpr ((List.forall₂_and_left staged texts).mp hboth).1
  have hfree' : ∀ file ∈ texts, files.get? (place ++ [file.1]) ≠ some .directory := by
    intro file hfile
    rw [h.elsewhere _ fun hmem => (hhidden _ hmem).ne (hnames file hfile) rfl]
    exact hfree file hfile
  obtain ⟨after, hpublish, hdirectory, hafter⟩ := publish_spec h.waits h.distinct hnames hfree'
  refine ⟨after, hpublish, hdirectory.trans h.workingDirectory, fun p => ?_⟩
  rw [hafter, Artifacts.published]
  split_ifs with hp
  · rw [textFor?_of_hidden hnames (hhidden p hp), h.fresh p hp]
    rfl
  · rw [h.elsewhere p hp]

theorem writeFiles_spec (dir : String) (attempts : Nat → Attempt) (files : Tree)
    (hnames : ∀ file ∈ texts, IsPublic file.1) :
    (∃ e, writeFiles dir texts attempts files = (.error e, (files.ensureDirectories dir).2) ∧
      Early dir texts attempts (files.ensureDirectories dir).2 e) ∨
    ∃ place after,
      writeFiles dir texts attempts files = (.ok (texts.map (Path.join dir ·.1)), after) ∧
      Published dir texts (files.ensureDirectories dir).2 after place ∧
      Met attempts texts.length := by
  unfold writeFiles
  obtain ⟨⟨result, made⟩, hmade⟩ : ∃ run, files.ensureDirectories dir = run := ⟨_, rfl⟩
  rw [hmade]
  cases result with
  | error fault => exact .inl ⟨_, rfl, .directory fault⟩
  | ok =>
    dsimp only
    cases hresolve : made.resolve (if dir.isEmpty then "." else dir) with
    | error fault => exact .inl ⟨_, rfl, .directory fault⟩
    | ok place =>
      dsimp only
      cases hobstacle : obstacle? place (texts.map (·.1)) made with
      | some name => exact .inl ⟨_, rfl, .obstructed name⟩
      | none =>
        dsimp only
        have hfree : ∀ file ∈ texts, made.get? (place ++ [file.1]) ≠ some .directory :=
          fun file hfile => free_of_obstacle? hobstacle _ (List.mem_map_of_mem hfile)
        rcases stage_spec dir place texts attempts made with
          ⟨k, name, fault, hunmet, hstage⟩ | ⟨staged, later, hstage, hstaging, hmet⟩
        · rw [hstage]
          exact .inl ⟨_, rfl, .stage fault hunmet⟩
        · rw [hstage]
          obtain ⟨after, hpublish, hdirectory, hafter⟩ := hstaging.published hnames hfree
          refine .inr ⟨place, after, hpublish,
            ⟨hresolve, fun hdir => ?_, hfree, hafter, hdirectory⟩, hmet⟩
          rw [if_neg (by simpa using hdir)] at hresolve
          exact get?_of_ensureDirectories hdir hmade hresolve

end Phases

/-- A request to write artifacts, with how the system meets those for temporary files. -/
structure Request where
  dir : String
  artifacts : Artifacts
  attempts : Nat → Attempt

/-- A request, and the files that it meets. -/
structure Call extends Request where
  before : Tree

namespace Call

variable (c : Call)

def result : Except Failure (List String) := (c.artifacts.write c.dir c.attempts c.before).1

def after : Tree := (c.artifacts.write c.dir c.attempts c.before).2

/-- The files once the directory has been made, or as much of it as can be. -/
def made : Tree := (c.before.ensureDirectories c.dir).2

def place? : Option Place := (c.made.resolve (if c.dir.isEmpty then "." else c.dir)).toOption

def text? (p : Place) : Option String :=
  if c.result.toOption.isSome then c.place?.bind (textFor? · c.artifacts.files p) else none

theorem spec : (∃ e, c.result = .error (.error e) ∧ c.after = c.made ∧
      Early c.dir c.artifacts.files c.attempts c.made e) ∨
    ∃ place, c.result = .ok (c.artifacts.files.map (Path.join c.dir ·.1)) ∧
      Published c.dir c.artifacts.files c.made c.after place ∧
      Met c.attempts c.artifacts.files.length := by
  rw [result, after, made, write]
  rcases writeFiles_spec c.dir c.attempts c.before fun _ => isPublic_of_mem_files with
    ⟨e, hwrite, hearly⟩ | ⟨place, after, hwrite, hpublished⟩
  · rw [hwrite]
    exact .inl ⟨e, rfl, rfl, hearly⟩
  · rw [hwrite]
    exact .inr ⟨place, rfl, hpublished⟩

theorem before_adds_made : c.before.AddsDirectories c.made := ensureDirectories_adds c.before c.dir

variable {c}

theorem text?_of_published {place : Place} (hresult : c.result.toOption.isSome)
    (h : Published c.dir c.artifacts.files c.made c.after place) (p : Place) :
    c.text? p = textFor? place c.artifacts.files p := by
  rw [text?, if_pos hresult, place?, h.resolves]
  rfl

theorem text?_of_error {e : Failure} (h : c.result = .error e) (p : Place) : c.text? p = none := by
  rw [text?, h]
  exact if_neg Bool.false_ne_true

variable (c)

theorem get?_after (p : Place) :
    c.after.get? p = ((c.text? p).map contents).or (c.made.get? p) := by
  rcases c.spec with ⟨e, hresult, hafter, _⟩ | ⟨place, hresult, hpublished, _⟩
  · rw [text?_of_error hresult, hafter]
    rfl
  · have hsome : c.result.toOption.isSome := by rw [hresult]; rfl
    rw [text?_of_published hsome hpublished, hpublished.entries]

theorem workingDirectory_after : c.after.workingDirectory = c.before.workingDirectory := by
  rw [← c.before_adds_made.workingDirectory]
  rcases c.spec with ⟨_, _, hafter, _⟩ | ⟨_, _, hpublished, _⟩
  · rw [hafter]
  · exact hpublished.workingDirectory

theorem directory_after {p : Place} (h : c.before.get? p = some .directory) :
    c.after.get? p = some .directory := by
  have hmade := (c.before_adds_made.keeps p).get? h
  rcases c.spec with ⟨_, _, hafter, _⟩ | ⟨place, _, hpublished, _⟩
  · rw [hafter, hmade]
  · exact hpublished.get?_directory hmade

/-- What a call comes to. A failure is one from ahead of the first file put in its place, however
many have been staged by then, and leaves the files as making the directory did. A call fails unless
the system makes and fills every file. A success gives the paths in the order of the files; each
leads to the text listed last for it, and nothing else has changed. No file is left that was not
there before and is not named by the call. -/
structure AllOrNothing : Prop where
  adds_made : c.before.AddsDirectories c.made
  fails {e : Failure} (h : c.result = .error e) : c.after = c.made ∧
    ∃ early, e = .error early ∧ Early c.dir c.artifacts.files c.attempts c.made early
  fails_of_not_met (h : ¬Met c.attempts c.artifacts.files.length) : ∃ e, c.result = .error e
  succeeds {written : List String} (h : c.result = .ok written) :
    written = c.artifacts.files.map (Path.join c.dir ·.1) ∧
    ∃ place, c.place? = some place ∧
      (∀ file ∈ c.artifacts.files, ∃ text,
        textFor? place c.artifacts.files (place ++ [file.1]) = some text ∧
        ((c.artifacts.files.map (·.1)).Nodup → text = file.2) ∧
        c.after.get? (place ++ [file.1]) = some (contents text) ∧
        ((Path.join c.dir file.1).utf8ByteSize < pathLimit →
          c.after.lookup (Path.join c.dir file.1) = .ok (contents text))) ∧
      ∀ p, (∀ file ∈ c.artifacts.files, p ≠ place ++ [file.1]) → c.after.get? p = c.made.get? p
  adds_no_file {p : Place} {bytes : List UInt8} {executable : Bool}
    (h : c.after.get? p = some (.file bytes executable)) (hnew : c.text? p = none) :
    c.before.get? p = some (.file bytes executable)

theorem resolve_after {place : Place} {file : String × String}
    (h : Published c.dir c.artifacts.files c.made c.after place) (hfile : file ∈ c.artifacts.files)
    (hshort : (Path.join c.dir file.1).utf8ByteSize < pathLimit) :
    c.after.resolve (Path.join c.dir file.1) = .ok (place ++ [file.1]) := by
  have hname := isPublic_of_mem_files hfile
  have hmade : c.made.resolve (Path.join c.dir file.1) = .ok (place ++ [file.1]) :=
    resolve_join hname.toIsName hname.slash hname.nul h.resolves h.directory hshort
  exact resolve_mono hmade h.workingDirectory fun p => h.get?_directory

theorem allOrNothing : c.AllOrNothing where
  adds_made := c.before_adds_made
  fails {e} h := by
    rcases c.spec with ⟨early, hresult, hafter, hearly⟩ | ⟨place, hresult, _⟩
    · cases h.symm.trans hresult
      exact ⟨hafter, early, rfl, hearly⟩
    · cases h.symm.trans hresult
  fails_of_not_met h := by
    rcases c.spec with ⟨early, hresult, _⟩ | ⟨_, _, _, hmet⟩
    · exact ⟨_, hresult⟩
    · exact absurd hmet h
  succeeds {written} h := by
    rcases c.spec with ⟨early, hresult, _⟩ | ⟨place, hresult, hpublished, _⟩
    · cases h.symm.trans hresult
    · cases h.symm.trans hresult
      refine ⟨rfl, place, ?_, fun file hfile => ?_, fun p hp => ?_⟩
      · rw [place?, hpublished.resolves]
        rfl
      · obtain ⟨text, htext, hlast⟩ : ∃ text, textFor? place c.artifacts.files _ = some text ∧ _ :=
          textFor?_of_mem hfile
        have hentry : c.after.get? (place ++ [file.1]) = some (contents text) := by
          rw [hpublished.entries, htext]
          rfl
        refine ⟨text, htext, hlast, hentry, fun hshort => ?_⟩
        exact lookup_eq_ok_iff.mpr ⟨_, c.resolve_after hpublished hfile hshort, hentry⟩
      · rw [hpublished.entries, textFor?_eq_none_iff.mpr hp]
        rfl
  adds_no_file {p bytes executable} h hnew := by
    rw [get?_after, hnew, Option.map_none, Option.none_or] at h
    rcases c.before_adds_made.keeps p with heq | ⟨_, hdir⟩
    · rw [← heq, h]
    · rw [hdir] at h
      cases h

end Call

/-- The calls of a sequence, each of which meets the files that the one ahead of it left. -/
def calls : Tree → List Request → List Call
  | _, [] => []
  | files, request :: rest => ⟨request, files⟩ :: calls (Call.mk request files).after rest

def left (files : Tree) (requests : List Request) : Tree :=
  requests.foldl (fun files request => (Call.mk request files).after) files

/-- The text that the last successful call to name a place puts there. -/
def lastText? (calls : List Call) (p : Place) : Option String :=
  calls.reverse.findSome? (·.text? p)

theorem lastText?_cons (c : Call) (rest : List Call) (p : Place) :
    lastText? (c :: rest) p = (lastText? rest p).or (c.text? p) := by
  rw [lastText?, List.reverse_cons, List.findSome?_append, List.findSome?_singleton, lastText?]

section Sequence

variable (files : Tree) (requests : List Request)

theorem workingDirectory_left :
    (left files requests).workingDirectory = files.workingDirectory := by
  induction requests generalizing files with
  | nil => rfl
  | cons request rest ih =>
    exact (ih _).trans (Call.mk request files).workingDirectory_after

theorem directory_left {p : Place} (h : files.get? p = some .directory) :
    (left files requests).get? p = some .directory := by
  induction requests generalizing files with
  | nil => exact h
  | cons request rest ih => exact ih _ ((Call.mk request files).directory_after h)

theorem get?_left (p : Place) : match lastText? (calls files requests) p with
    | some text => (left files requests).get? p = some (contents text)
    | none => files.Keeps (left files requests) p := by
  induction requests generalizing files with
  | nil => exact .inl rfl
  | cons request rest ih =>
    let c : Call := ⟨request, files⟩
    have hrest := ih c.after
    change match lastText? (c :: calls c.after rest) p with
      | some text => (left c.after rest).get? p = some (contents text)
      | none => files.Keeps (left c.after rest) p
    rw [lastText?_cons]
    cases hlast : lastText? (calls c.after rest) p with
    | some text =>
      rw [hlast] at hrest
      exact hrest
    | none =>
      rw [hlast] at hrest
      have hafter := c.get?_after p
      rw [Option.none_or]
      cases htext : c.text? p with
      | some text =>
        rw [htext] at hafter
        exact hrest.get? hafter
      | none =>
        rw [htext] at hafter
        have hmade : c.made.Keeps c.after p := .inl hafter
        exact ((c.before_adds_made.keeps p).trans hmade).trans hrest

theorem resolve_left {c : Call} (hc : c ∈ calls files requests) {path : String} {place : Place}
    (h : c.after.resolve path = .ok place) : (left files requests).resolve path = .ok place := by
  induction requests generalizing files with
  | nil => cases hc
  | cons request rest ih =>
    rcases List.mem_cons.mp hc with rfl | hrest
    · exact resolve_mono h (workingDirectory_left _ rest) fun p => directory_left _ rest
    · exact ih _ hrest

/-- Over any sequence of calls, each of them is all or nothing; every place holds the text of the
last successful call that names it, whatever calls came between; and the paths that a successful
call gave keep leading there. -/
theorem write_all_or_nothing :
    (∀ c ∈ calls files requests, c.AllOrNothing) ∧
    (∀ p, match lastText? (calls files requests) p with
      | some text => (left files requests).get? p = some (contents text)
      | none => files.Keeps (left files requests) p) ∧
    ∀ c ∈ calls files requests, ∀ place, c.result.toOption.isSome → c.place? = some place →
      ∀ file ∈ c.artifacts.files, (Path.join c.dir file.1).utf8ByteSize < pathLimit →
        (left files requests).resolve (Path.join c.dir file.1) = .ok (place ++ [file.1]) := by
  refine ⟨fun c _ => c.allOrNothing, get?_left files requests, ?_⟩
  intro c hc place hresult hplace file hfile hshort
  rcases c.spec with ⟨_, herror, _⟩ | ⟨found, _, hpublished, _⟩
  · rw [herror] at hresult
    cases hresult
  · rw [Call.place?, hpublished.resolves] at hplace
    cases hplace
    exact resolve_left files requests hc (c.resolve_after hpublished hfile hshort)

end Sequence

def imageOf (last : UInt8) : List Image :=
  (do
    let layout ← (Layout.ofShift 5).toOption
    (Image.assemble layout .legacy [⟨⟨"a.yul", 1⟩, [0x5b, last], []⟩]).toOption).toList

/-- The system runs out of space behind one byte of the second file. -/
def shortOfSpace : Request where
  dir := "out"
  artifacts := ⟨.single, imageOf 0x00, [0xaa], [], none⟩
  attempts
    | 0 => .numbered 1
    | _ => { Attempt.numbered 2 with shortage? := some (.noSpace, 1) }

/-- Behind a staged file and a part of another one, nothing is left of either. -/
theorem write_all_or_nothing_short_of_space :
    (Call.mk shortOfSpace {}).result = .error (.error
      (.io (.stage "initcode.txt") (.located .noSpace "/out/.tmp000001"))) ∧
    (Call.mk shortOfSpace {}).after = (Call.mk shortOfSpace {}).made := by
  have hresult : (Call.mk shortOfSpace {}).result = .error (.error
      (.io (.stage "initcode.txt") (.located .noSpace "/out/.tmp000001"))) := by decide +kernel
  have hall := (write_all_or_nothing {} [shortOfSpace]).1 (.mk shortOfSpace {}) List.mem_cons_self
  exact ⟨hresult, (hall.fails hresult).1⟩

def twoImages : Call where
  dir := "out"
  artifacts := ⟨.single, imageOf 0x00 ++ imageOf 0x01, [0xaa], [], none⟩
  attempts _ := .numbered 3
  before := {}

/-- Of two texts that are listed for one name, the first is lost. -/
theorem not_forall_holds_listed_text :
    ¬ ∀ (c : Call) (written : List String) (place : Place), c.result = .ok written →
      c.place? = some place → ∀ file ∈ c.artifacts.files,
        c.after.get? (place ++ [file.1]) = some (contents file.2) := by
  intro hall
  have hplace : twoImages.place? = some ["out"] := by decide +kernel
  have hsome : twoImages.result.toOption.isSome := by decide +kernel
  cases hresult : twoImages.result with
  | error e =>
    rw [hresult] at hsome
    cases hsome
  | ok written =>
    have hfirst := hall twoImages written _ hresult hplace
      ("runtime.txt", Hex.encode ((imageOf 0x00).flatMap (·.bytes))) (by decide +kernel)
    exact absurd hfirst (by decide +kernel)

end ImageLinker.Artifacts
