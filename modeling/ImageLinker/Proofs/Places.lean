import Mathlib.Data.List.Basic
import Mathlib.Data.List.TakeWhile
import ImageLinker.Proofs.Temporaries

/-!
What paths lead to. Making directories leaves every path leading where it led, and a name behind the
path of a directory leads to that name below the directory.
-/
namespace ImageLinker.Files

namespace Path

theorem splitSlash_ne_nil (text : List Char) : splitSlash text ≠ [] := by
  cases text with
  | nil => simp [splitSlash]
  | cons c rest =>
    rw [splitSlash]
    split
    · simp
    · split <;> simp

theorem splitSlash_append_slash (front back : List Char) :
    splitSlash (front ++ '/' :: back) = splitSlash front ++ splitSlash back := by
  induction front with
  | nil => rfl
  | cons c front ih =>
    rw [List.cons_append, splitSlash, splitSlash, ih]
    by_cases hc : c = '/'
    · rw [if_pos hc, if_pos hc, List.cons_append]
    · obtain ⟨piece, pieces, hfront⟩ := List.exists_cons_of_ne_nil (splitSlash_ne_nil front)
      rw [if_neg hc, if_neg hc, hfront]
      rfl

theorem splitSlash_of_notMem {text : List Char} (h : '/' ∉ text) : splitSlash text = [text] := by
  induction text with
  | nil => rfl
  | cons c rest ih =>
    obtain ⟨hc, hrest⟩ := List.ne_and_not_mem_of_not_mem_cons h
    rw [splitSlash, if_neg hc.symm, ih hrest]

theorem pieces_of_notMem {name : String} (h : '/' ∉ name.toList) : pieces name = [name] := by
  rw [pieces, splitSlash_of_notMem h, List.map_singleton, String.ofList_toList]

theorem isAbsolute_of_notMem {name : String} (h : '/' ∉ name.toList) : isAbsolute name = false := by
  rw [isAbsolute, beq_eq_false_iff_ne]
  exact fun hhead => h (List.mem_of_head? hhead)

theorem isAbsolute_append {path : String} (h : path ≠ "") (more : String) :
    isAbsolute (path ++ more) = isAbsolute path := by
  rw [isAbsolute, isAbsolute, String.toList_append, List.head?_append_of_ne_nil]
  exact fun hnil => h (String.toList_eq_nil_iff.mp hnil)

theorem join_of_notMem {dir name : String} (h : '/' ∉ name.toList) : join dir name =
    if dir = "" ∨ dir.toList.getLast? = some '/' then dir ++ name else dir ++ "/" ++ name := by
  rw [join, isAbsolute_of_notMem h, if_neg Bool.false_ne_true]
  refine if_congr ?_ rfl rfl
  rw [Bool.or_eq_true, String.isEmpty_iff, beq_iff_eq]

theorem pieces_append_slash (front : List Char) (back : String) :
    pieces (String.ofList (front ++ '/' :: back.toList)) =
      pieces (String.ofList front) ++ pieces back := by
  rw [pieces, pieces, String.toList_ofList, String.toList_ofList, splitSlash_append_slash,
    List.map_append, pieces]

/-- A name below a path is its last piece; the pieces ahead of it are those of the path, but for a
blank one at the path's end. -/
theorem exists_pieces_join {dir name : String} (hdir : dir ≠ "") (h : '/' ∉ name.toList) :
    ∃ front count, pieces dir = front ++ List.replicate count "" ∧
      pieces (join dir name) = front ++ [name] := by
  rw [join_of_notMem h, ← pieces_of_notMem h]
  by_cases hlast : dir.toList.getLast? = some '/'
  · obtain ⟨front, hfront⟩ := List.getLast?_eq_some_iff.mp hlast
    have hdirEq : dir = String.ofList (front ++ '/' :: "".toList) := by
      rw [String.toList_empty, ← hfront, String.ofList_toList]
    have hjoin : dir ++ name = String.ofList (front ++ '/' :: name.toList) := by
      rw [String.toList_inj.symm, String.toList_append, hfront, String.toList_ofList,
        List.append_assoc, List.singleton_append]
    refine ⟨pieces (String.ofList front), 1, ?_, ?_⟩
    · rw [hdirEq, pieces_append_slash]
      rfl
    · rw [if_pos (.inr hlast), hjoin, pieces_append_slash]
  · have hjoin : dir ++ "/" ++ name = String.ofList (dir.toList ++ '/' :: name.toList) := by
      rw [String.toList_inj.symm, String.toList_append, String.toList_append, String.toList_ofList,
        String.toList_ofList, List.append_assoc, List.singleton_append]
    refine ⟨pieces dir, 0, (List.append_nil _).symm, ?_⟩
    rw [if_neg (not_or.mpr ⟨hdir, hlast⟩), hjoin, pieces_append_slash, String.ofList_toList]

theorem mem_join {dir name : String} {c : Char} (h : '/' ∉ name.toList)
    (hc : c ∈ (join dir name).toList) : c ∈ dir.toList ∨ c = '/' ∨ c ∈ name.toList := by
  rw [join_of_notMem h] at hc
  split at hc
  · rw [String.toList_append, List.mem_append] at hc
    exact hc.imp id .inr
  · rw [String.toList_append, String.toList_append, List.mem_append, List.mem_append,
      or_assoc] at hc
    exact hc.imp id (.imp List.mem_singleton.mp id)

theorem join_ne_empty {dir : String} (hdir : dir ≠ "") (name : String) : join dir name ≠ "" := by
  rw [join]
  split
  · next habsolute =>
    rintro rfl
    cases habsolute
  · split <;> simp [hdir]

theorem isAbsolute_join {dir name : String} (hdir : dir ≠ "") (h : '/' ∉ name.toList) :
    isAbsolute (join dir name) = isAbsolute dir := by
  rw [join_of_notMem h]
  split
  · exact isAbsolute_append hdir name
  · rw [String.append_assoc]
    exact isAbsolute_append hdir _

theorem splitSlash_slashes (count : Nat) :
    splitSlash (List.replicate count '/') = List.replicate (count + 1) [] := by
  induction count with
  | zero => rfl
  | succ count ih =>
    rw [List.replicate_succ, splitSlash, if_pos rfl, ih]
    rfl

/-- Slashes at the end of a path add blank pieces. -/
theorem splitSlash_append_slashes (front : List Char) (count : Nat) :
    splitSlash (front ++ List.replicate count '/') =
      splitSlash front ++ List.replicate count [] := by
  cases count with
  | zero => rw [List.replicate_zero, List.append_nil, List.replicate_zero, List.append_nil]
  | succ count => rw [List.replicate_succ, splitSlash_append_slash, splitSlash_slashes]

/-- A path that is not made of slashes alone is itself without slashes at its end, and then those
slashes. -/
theorem exists_trailing (path : String) : dropTrailingSlashes path = "/" ∨
    isAbsolute (dropTrailingSlashes path) = isAbsolute path ∧
      ∃ count, pieces path = pieces (dropTrailingSlashes path) ++ List.replicate count "" := by
  obtain ⟨kept, hkept⟩ : ∃ kept, kept = (path.toList.reverse.dropWhile isSlash).reverse := ⟨_, rfl⟩
  obtain ⟨count, hpath⟩ : ∃ count, path.toList = kept ++ List.replicate count '/' := by
    have hslashes : ∀ c ∈ path.toList.reverse.takeWhile isSlash, c = '/' := fun c hc => by
      simpa [isSlash] using List.mem_takeWhile_imp hc
    have hsplit := List.takeWhile_append_dropWhile (p := isSlash) (l := path.toList.reverse)
    rw [List.eq_replicate_of_mem hslashes] at hsplit
    have hback := congrArg List.reverse hsplit
    rw [List.reverse_append, List.reverse_replicate, ← hkept, List.reverse_reverse] at hback
    exact ⟨_, hback.symm⟩
  rw [dropTrailingSlashes, ← hkept]
  split_ifs with hroot
  · exact .inl rfl
  · refine .inr ⟨?_, count, ?_⟩
    · rw [isAbsolute, isAbsolute, String.toList_ofList, hpath]
      cases kept with
      | cons c rest => rfl
      | nil =>
        cases count with
        | zero => rfl
        | succ count =>
          refine absurd ?_ hroot
          rw [isAbsolute, hpath]
          rfl
    · rw [pieces, hpath, splitSlash_append_slashes, List.map_append, List.map_replicate, pieces,
        String.toList_ofList]

end Path

namespace Tree

/-- A piece of a path that is a name. -/
structure IsName (piece : String) : Prop where
  ne_blank : ¬(piece = "" ∨ piece = ".")
  ne_up : piece ≠ ".."
  short : piece.utf8ByteSize ≤ nameLimit

/-- From a directory, pieces of a path lead to a place. -/
inductive Leads (t : Tree) : Place → List String → Place → Prop where
  | done (here : Place) : Leads t here [] here
  | stay {here place : Place} {piece : String} {rest : List String} (h : piece = "" ∨ piece = ".")
      (hrest : Leads t here rest place) : Leads t here (piece :: rest) place
  | up {here place : Place} {rest : List String} (hrest : Leads t here.dropLast rest place) :
      Leads t here (".." :: rest) place
  | name {here place : Place} {piece : String} {rest : List String} (hpiece : IsName piece)
      (hdir : rest ≠ [] → t.get? (here ++ [piece]) = some .directory)
      (hrest : Leads t (here ++ [piece]) rest place) : Leads t here (piece :: rest) place

variable {t t' : Tree} {here place target : Place} {pieces : List String}

theorem follow_eq_ok_iff : t.follow here pieces = .ok place ↔ t.Leads here pieces place := by
  constructor
  · intro h
    fun_induction t.follow here pieces with
    | case1 here =>
      cases h
      exact .done _
    | case2 here piece rest hpiece ih => exact .stay hpiece (ih h)
    | case3 here rest _ ih => exact .up (ih h)
    | case4 => cases h
    | case5 here piece hblank hup hshort =>
      cases h
      exact .name ⟨hblank, hup, Nat.le_of_not_lt hshort⟩ (absurd rfl) (.done _)
    | case6 here piece rest hblank hup hshort _ hdir ih =>
      exact .name ⟨hblank, hup, Nat.le_of_not_lt hshort⟩ (fun _ => hdir) (ih h)
    | case7 => cases h
    | case8 => cases h
  · intro h
    induction h with
    | done here => rfl
    | stay hpiece _ ih => rw [follow, if_pos hpiece, ih]
    | up _ ih => rw [follow, if_neg (by decide), if_pos rfl, ih]
    | @name here place piece rest hpiece hdir hrest ih =>
      rw [follow, if_neg hpiece.ne_blank, if_neg hpiece.ne_up, if_neg (Nat.not_lt.mpr hpiece.short)]
      by_cases hnil : rest = []
      · subst hnil
        cases hrest
        rw [if_pos rfl]
      · rw [if_neg hnil, hdir hnil]
        exact ih

namespace Leads

theorem mono (h : t.Leads here pieces place)
    (hdirs : ∀ p, t.get? p = some .directory → t'.get? p = some .directory) :
    t'.Leads here pieces place := by
  induction h with
  | done here => exact .done here
  | stay hpiece _ ih => exact .stay hpiece ih
  | up _ ih => exact .up ih
  | name hpiece hdir _ ih => exact .name hpiece (fun hrest => hdirs _ (hdir hrest)) ih

theorem append {more : List String} (h : t.Leads here pieces place)
    (hplace : t.get? place = some .directory) (hmore : t.Leads place more target) :
    t.Leads here (pieces ++ more) target := by
  induction h with
  | done here => exact hmore
  | stay hpiece _ ih => exact .stay hpiece (ih hplace hmore)
  | up _ ih => exact .up (ih hplace hmore)
  | @name here place piece rest hpiece hdir hrest ih =>
    refine .name hpiece (fun _ => ?_) (ih hplace hmore)
    by_cases hnil : rest = []
    · subst hnil
      cases hrest
      exact hplace
    · exact hdir hnil

/-- Blank pieces at the end lead nowhere else. -/
theorem of_append_blanks {count : Nat}
    (h : t.Leads here (pieces ++ List.replicate count "") place) :
    t.Leads here pieces place := by
  induction pieces generalizing here with
  | nil =>
    induction count with
    | zero => exact h
    | succ count ih =>
      have hfollow := follow_eq_ok_iff.mpr h
      rw [List.nil_append, List.replicate_succ, follow, if_pos (.inl rfl)] at hfollow
      exact ih (follow_eq_ok_iff.mp hfollow)
  | cons piece rest ih =>
    cases h with
    | stay hpiece hrest => exact .stay hpiece (ih hrest)
    | up hrest => exact .up (ih hrest)
    | name hpiece hdir hrest =>
      exact .name hpiece (fun hne => hdir (List.append_ne_nil_of_left_ne_nil hne _)) (ih hrest)

/-- Where a path leads that ends in a name has this name. -/
theorem exists_parent {name : String} (hblank : ¬(name = "" ∨ name = ".")) (hup : name ≠ "..")
    (h : t.Leads here (pieces ++ [name]) place) : ∃ parent, place = parent ++ [name] := by
  induction pieces generalizing here with
  | nil =>
    cases h with
    | stay hname => exact absurd hname hblank
    | up => exact absurd rfl hup
    | name _ _ hrest =>
      cases hrest
      exact ⟨here, rfl⟩
  | cons piece rest ih =>
    cases h with
    | stay _ hrest => exact ih hrest
    | up hrest => exact ih hrest
    | name _ _ hrest => exact ih hrest

theorem unique {other : Place} (h : t.Leads here pieces place) (h' : t.Leads here pieces other) :
    place = other :=
  Except.ok.inj ((follow_eq_ok_iff.mpr h).symm.trans (follow_eq_ok_iff.mpr h'))

end Leads

def base (t : Tree) (path : String) : Place :=
  if Path.isAbsolute path then [] else t.workingDirectory

theorem resolve_eq_ok_iff {path : String} : t.resolve path = .ok place ↔
    path ≠ "" ∧ '\x00' ∉ path.toList ∧ path.utf8ByteSize < pathLimit ∧
      t.Leads (t.base path) (Path.pieces path) place := by
  rw [← follow_eq_ok_iff, resolve, base]
  simp only [String.isEmpty_iff, List.contains_iff_mem]
  by_cases hempty : path = ""
  · rw [if_pos hempty]
    exact ⟨nofun, fun h => absurd hempty h.1⟩
  by_cases hnul : '\x00' ∈ path.toList
  · rw [if_neg hempty, if_pos hnul]
    exact ⟨nofun, fun h => absurd hnul h.2.1⟩
  by_cases hlong : pathLimit ≤ path.utf8ByteSize
  · rw [if_neg hempty, if_neg hnul, if_pos hlong]
    exact ⟨nofun, fun h => absurd h.2.2.1 (Nat.not_lt.mpr hlong)⟩
  rw [if_neg hempty, if_neg hnul, if_neg hlong]
  exact ⟨fun h => ⟨hempty, hnul, Nat.lt_of_not_le hlong, h⟩, fun h => h.2.2.2⟩

/-- Directories that stay keep paths leading where they led. -/
theorem resolve_mono {path : String} (h : t.resolve path = .ok place)
    (hbase : t'.workingDirectory = t.workingDirectory)
    (hdirs : ∀ p, t.get? p = some .directory → t'.get? p = some .directory) :
    t'.resolve path = .ok place := by
  obtain ⟨hne, hnul, hshort, hleads⟩ := resolve_eq_ok_iff.mp h
  refine resolve_eq_ok_iff.mpr ⟨hne, hnul, hshort, ?_⟩
  rw [base, hbase]
  exact hleads.mono hdirs

theorem get?_set {entry : Entry} (hplace : place ≠ []) (other : Place) :
    (t.set place entry).get? other = if other = place then some entry else t.get? other := by
  unfold get? set
  by_cases hroot : other = []
  · rw [if_pos hroot, if_pos hroot, if_neg (hroot.trans_ne hplace.symm)]
  · rw [if_neg hroot, if_neg hroot]
    by_cases h : other = place
    · rw [if_pos h, h, List.find?_cons_of_pos (by simp), Option.map_some]
    · rw [if_neg h, List.find?_cons_of_neg (by simpa using Ne.symm h), List.find?_filter]
      congr 2
      funext e
      by_cases he : e.1 = other
      · simp [he, h]
      · simp [he]

theorem get?_erase (hplace : place ≠ []) (other : Place) :
    (t.erase place).get? other = if other = place then none else t.get? other := by
  unfold get? erase
  by_cases hroot : other = []
  · rw [if_pos hroot, if_pos hroot, if_neg (hroot.trans_ne hplace.symm)]
  · rw [if_neg hroot, if_neg hroot, List.find?_filter]
    by_cases h : other = place
    · rw [if_pos h, h]
      simp
    · rw [if_neg h]
      congr 2
      funext e
      by_cases he : e.1 = other
      · simp [he, h]
      · simp [he]

/-- What stands at a place stays, but that there may be a directory where nothing was. -/
def Keeps (t t' : Tree) (place : Place) : Prop :=
  t'.get? place = t.get? place ∨ t.get? place = none ∧ t'.get? place = some .directory

theorem Keeps.trans {t'' : Tree} (h : t.Keeps t' place) (h' : t'.Keeps t'' place) :
    t.Keeps t'' place := by
  rcases h with heq | ⟨hnone, hdir⟩
  · rw [Keeps, ← heq]
    exact h'
  · rcases h' with heq' | ⟨hnone', _⟩
    · exact .inr ⟨hnone, heq'.trans hdir⟩
    · rw [hdir] at hnone'
      cases hnone'

theorem Keeps.get? {entry : Entry} (h : t.Keeps t' place) (hentry : t.get? place = some entry) :
    t'.get? place = some entry := by
  rcases h with heq | ⟨hnone, _⟩
  · exact heq.trans hentry
  · rw [hentry] at hnone
    cases hnone

/-- Files come from others by making directories alone. -/
structure AddsDirectories (t t' : Tree) : Prop where
  workingDirectory : t'.workingDirectory = t.workingDirectory
  keeps (place : Place) : t.Keeps t' place

theorem AddsDirectories.refl (t : Tree) : t.AddsDirectories t := ⟨rfl, fun _ => .inl rfl⟩

theorem AddsDirectories.trans {t'' : Tree} (h : t.AddsDirectories t')
    (h' : t'.AddsDirectories t'') : t.AddsDirectories t'' :=
  ⟨h'.workingDirectory.trans h.workingDirectory, fun p => (h.keeps p).trans (h'.keeps p)⟩

theorem makeDirectory_eq_ok {path : String} (h : t.makeDirectory path = .ok t') :
    ∃ place, t.resolve (Path.dropTrailingSlashes path) = .ok place ∧ t.get? place = none ∧
      t' = t.set place .directory := by
  unfold makeDirectory at h
  cases hresolve : t.resolve (Path.dropTrailingSlashes path) with
  | error fault =>
    rw [hresolve] at h
    cases h
  | ok place =>
    rw [hresolve] at h
    dsimp only [bind, Except.bind] at h
    cases hplace : t.get? place with
    | some entry =>
      rw [hplace] at h
      cases h
    | none =>
      rw [hplace] at h
      cases h
      exact ⟨place, rfl, hplace, rfl⟩

theorem makeDirectory_adds {path : String} (h : t.makeDirectory path = .ok t') :
    t.AddsDirectories t' := by
  obtain ⟨place, _, hnone, rfl⟩ := makeDirectory_eq_ok h
  refine ⟨rfl, fun other => ?_⟩
  rw [Keeps, get?_set (get?_eq_none_iff.mp hnone).1]
  split_ifs with hother
  · exact .inr ⟨hother ▸ hnone, rfl⟩
  · exact .inl rfl

theorem makeDirectoriesFrom_adds (t : Tree) (fuel : Nat) (path : String) :
    t.AddsDirectories (t.makeDirectoriesFrom fuel path).2 := by
  induction fuel generalizing path with
  | zero => exact .refl t
  | succ fuel ih =>
    unfold makeDirectoriesFrom
    split
    · exact .refl t
    split
    · rename_i made hmade
      exact makeDirectory_adds hmade
    · split
      · exact .refl t
      · rename_i parent _
        have hparent := ih parent
        split
        · rename_i fault made hmade
          rw [hmade] at hparent
          exact hparent
        · rename_i made hmade
          rw [hmade] at hparent
          split
          · rename_i last hlast
            exact hparent.trans (makeDirectory_adds hlast)
          · exact hparent
    · exact .refl t

theorem ensureDirectories_adds (t : Tree) (path : String) :
    t.AddsDirectories (t.ensureDirectories path).2 := makeDirectoriesFrom_adds t _ path

theorem lookup_eq_ok_iff {path : String} {entry : Entry} :
    t.lookup path = .ok entry ↔
      ∃ place, t.resolve path = .ok place ∧ t.get? place = some entry := by
  unfold lookup
  cases hresolve : t.resolve path with
  | error fault =>
    refine ⟨fun h => ?_, fun ⟨_, h, _⟩ => ?_⟩
    · cases h
    · cases h
  | ok place =>
    dsimp only [bind, Except.bind]
    constructor
    · intro h
      split at h
      · rename_i found hfound
        cases h
        exact ⟨place, rfl, hfound⟩
      · cases h
    · rintro ⟨_, hplace, hentry⟩
      cases hplace
      rw [hentry]

theorem isDirectory_iff {path : String} : t.isDirectory path ↔
    ∃ place, t.resolve path = .ok place ∧ t.get? place = some .directory := by
  rw [← lookup_eq_ok_iff, isDirectory]
  split
  · rename_i h
    exact iff_of_true rfl h
  · rename_i h
    exact iff_of_false Bool.false_ne_true h

/-- Where a directory has been made, the path leads to a directory. -/
theorem get?_of_makeDirectory {path : String} (h : t.makeDirectory path = .ok t')
    (hresolve : t'.resolve path = .ok place) : t'.get? place = some .directory := by
  have hadds := makeDirectory_adds h
  obtain ⟨made, hmade, hnone, rfl⟩ := makeDirectory_eq_ok h
  have hne := (get?_eq_none_iff.mp hnone).1
  obtain ⟨_, _, _, hbefore⟩ := resolve_eq_ok_iff.mp hmade
  obtain ⟨_, _, _, hafter⟩ := resolve_eq_ok_iff.mp hresolve
  rcases Path.exists_trailing path with hroot | ⟨habsolute, count, hpieces⟩
  · -- The root is there already.
    rw [hroot] at hbefore
    have hlead : t.Leads [] (Path.pieces "/") [] := .stay (.inl rfl) (.stay (.inl rfl) (.done _))
    exact absurd (hbefore.unique hlead) hne
  · rw [hpieces] at hafter
    have hsame := hbefore.mono fun p hp => (hadds.keeps p).get? hp
    rw [base, habsolute] at hsame
    rw [hafter.of_append_blanks.unique hsame, get?_set hne, if_pos rfl]

/-- Where directories have been made, the path leads to a directory. -/
theorem get?_of_ensureDirectories {path : String} (hpath : path ≠ "")
    (h : t.ensureDirectories path = (.ok (), t')) (hresolve : t'.resolve path = .ok place) :
    t'.get? place = some .directory := by
  have hthere {made : Tree} {fault : Fault}
      (hmade : (if made.isDirectory path then Except.ok () else .error fault, made) =
        (.ok (), t')) : t'.get? place = some .directory := by
    split at hmade
    · rename_i hdir
      cases hmade
      obtain ⟨found, hfound, hentry⟩ := isDirectory_iff.mp hdir
      cases hfound.symm.trans hresolve
      exact hentry
    · cases hmade
  unfold ensureDirectories makeDirectoriesFrom at h
  rw [if_neg (by simpa using hpath)] at h
  split at h
  · rename_i made hmade
    cases h
    exact get?_of_makeDirectory hmade hresolve
  · split at h
    · cases h
    · split at h
      · cases h
      · split at h
        · rename_i last hlast
          cases h
          exact get?_of_makeDirectory hlast hresolve
        · exact hthere h
  · exact hthere h

/-- A name without a slash behind the path of a directory leads to that name in the directory. -/
theorem resolve_join {dir name : String} (hname : IsName name) (hslash : '/' ∉ name.toList)
    (hnul : '\x00' ∉ name.toList)
    (hdir : t.resolve (if dir.isEmpty then "." else dir) = .ok place)
    (hplace : dir ≠ "" → t.get? place = some .directory)
    (hshort : (Path.join dir name).utf8ByteSize < pathLimit) :
    t.resolve (Path.join dir name) = .ok (place ++ [name]) := by
  obtain ⟨_, hdirNul, _, hlead⟩ := resolve_eq_ok_iff.mp hdir
  have hlast : t.Leads place [name] (place ++ [name]) := .name hname (absurd rfl) (.done _)
  by_cases hempty : dir = ""
  · subst hempty
    have hhere : t.workingDirectory = place :=
      (Leads.stay (.inr rfl) (.done _) : t.Leads t.workingDirectory ["."] _).unique hlead
    have hjoin : Path.join "" name = name := by
      rw [Path.join_of_notMem hslash, if_pos (.inl rfl), String.empty_append]
    rw [hjoin] at hshort ⊢
    refine resolve_eq_ok_iff.mpr ⟨fun h => hname.ne_blank (.inl h), hnul, hshort, ?_⟩
    rw [base, Path.isAbsolute_of_notMem hslash, Path.pieces_of_notMem hslash, hhere]
    exact hlast
  · rw [if_neg (by simpa using hempty)] at hdirNul hlead
    obtain ⟨front, count, hpieces, hjoin⟩ := Path.exists_pieces_join hempty hslash
    rw [hpieces] at hlead
    refine resolve_eq_ok_iff.mpr ⟨Path.join_ne_empty hempty name, fun hmem => ?_, hshort, ?_⟩
    · rcases Path.mem_join hslash hmem with hmem | hmem | hmem
      · exact hdirNul hmem
      · cases hmem
      · exact hnul hmem
    · rw [hjoin, base, Path.isAbsolute_join hempty hslash]
      exact hlead.of_append_blanks.append (hplace hempty) hlast

/-- Below a directory a name leads to a place of this name. -/
theorem exists_parent_of_resolve_join {dir name : String} (hdir : dir ≠ "")
    (hslash : '/' ∉ name.toList) (hblank : ¬(name = "" ∨ name = ".")) (hup : name ≠ "..")
    (h : t.resolve (Path.join dir name) = .ok place) : ∃ parent, place = parent ++ [name] := by
  obtain ⟨_, _, _, hlead⟩ := resolve_eq_ok_iff.mp h
  obtain ⟨front, _, _, hjoin⟩ := Path.exists_pieces_join hdir hslash
  rw [hjoin] at hlead
  exact hlead.exists_parent hblank hup

end Tree
end ImageLinker.Files
