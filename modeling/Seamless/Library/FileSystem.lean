import Mathlib.Data.List.Flatten
import Mathlib.Data.List.Perm.Subperm
import Seamless.Library.KeyedTable

/-!
A directory over files, as much of POSIX as decides what a reader finds: a name is
opened to a file, writes go to the open file whatever its name is by then, and
`rename` replaces the target.
-/

namespace Seamless.Library

/-- `directory` gives the index in `files` of the file that a name stands for. There
are no hard links, so that a file has one name at most. -/
structure FileSystem (ν β : Type*) [DecidableEq ν] where
  directory : KeyedTable ν Nat
  files : List (List β)
  linked : ∀ name file, directory.lookup name = some file → file < files.length
  unshared : ∀ name name' file, directory.lookup name = some file →
    directory.lookup name' = some file → name = name'

namespace FileSystem

variable {ν β : Type*} [DecidableEq ν]

def empty : FileSystem ν β where
  directory := ∅
  files := []
  linked := by simp
  unshared := by simp

def contents (fs : FileSystem ν β) (file : Nat) : List β := fs.files[file]?.getD []

def read (fs : FileSystem ν β) (name : ν) : Option (List β) :=
  (fs.directory.lookup name).map fs.contents

def setContents (fs : FileSystem ν β) (file : Nat) (text : List β) : FileSystem ν β where
  directory := fs.directory
  files := fs.files.set file text
  linked := by simpa using fs.linked
  unshared := fs.unshared

/-- What `O_CREAT` does for a name that has no file. -/
def create (fs : FileSystem ν β) (name : ν) (hfree : fs.directory.lookup name = none) :
    FileSystem ν β where
  directory := fs.directory.insert name fs.files.length
  files := fs.files ++ [[]]
  linked := by
    intro name' file hlookup
    rw [List.length_append]
    by_cases hname : name' = name
    · subst hname
      simp only [AList.lookup_insert, Option.some.injEq] at hlookup
      simp [← hlookup]
    · rw [AList.lookup_insert_ne hname] at hlookup
      exact Nat.lt_add_right _ (fs.linked name' file hlookup)
  unshared := by
    intro name' name'' file hname' hname''
    have hnew : ∀ n, fs.directory.lookup n ≠ some fs.files.length := by
      intro n hn
      exact absurd (fs.linked n _ hn) (lt_irrefl _)
    by_cases hfirst : name' = name <;> by_cases hsecond : name'' = name
    · exact hfirst.trans hsecond.symm
    · subst hfirst
      rw [AList.lookup_insert, Option.some.injEq] at hname'
      rw [AList.lookup_insert_ne hsecond, ← hname'] at hname''
      exact absurd hname'' (hnew name'')
    · subst hsecond
      rw [AList.lookup_insert, Option.some.injEq] at hname''
      rw [AList.lookup_insert_ne hfirst, ← hname''] at hname'
      exact absurd hname' (hnew name')
    · rw [AList.lookup_insert_ne hfirst] at hname'
      rw [AList.lookup_insert_ne hsecond] at hname''
      exact fs.unshared name' name'' file hname' hname''

/-- Open a file, creating it if there is none under the name. -/
def openCreate (fs : FileSystem ν β) (name : ν) : Nat × FileSystem ν β :=
  match h : fs.directory.lookup name with
  | some file => (file, fs)
  | none => (fs.files.length, fs.create name h)

/-- Open a file with `O_CREAT | O_TRUNC`. -/
def createTruncate (fs : FileSystem ν β) (name : ν) : Nat × FileSystem ν β :=
  let opened := fs.openCreate name
  (opened.1, opened.2.setContents opened.1 [])

/-- One write through a handle whose offset is zero. -/
def overwrite (fs : FileSystem ν β) (file : Nat) (text : List β) : FileSystem ν β :=
  fs.setContents file (text ++ (fs.contents file).drop text.length)

/-- One write through a handle in append mode. -/
def append (fs : FileSystem ν β) (file : Nat) (text : List β) : FileSystem ν β :=
  fs.setContents file (fs.contents file ++ text)

theorem lookup_erase_of_some {directory : KeyedTable ν Nat} {name source : ν} {file : Nat}
    (h : (directory.erase source).lookup name = some file) :
    name ≠ source ∧ directory.lookup name = some file := by
  have hne : name ≠ source := by
    rintro rfl
    rw [AList.lookup_erase] at h
    cases h
  rw [AList.lookup_erase_ne hne] at h
  exact ⟨hne, h⟩

/-- The directory once the file of `source` has the name `target`. -/
def moved (fs : FileSystem ν β) (source target : ν) (file : Nat)
    (hsource : fs.directory.lookup source = some file) : FileSystem ν β where
  directory := (fs.directory.erase source).insert target file
  files := fs.files
  linked := by
    intro name file' hlookup
    by_cases hname : name = target
    · subst hname
      rw [AList.lookup_insert, Option.some.injEq] at hlookup
      subst hlookup
      exact fs.linked source file hsource
    · rw [AList.lookup_insert_ne hname] at hlookup
      exact fs.linked name file' (lookup_erase_of_some hlookup).2
  unshared := by
    intro name name' file' hname hname'
    have hother : ∀ n, n ≠ target →
        ((fs.directory.erase source).insert target file).lookup n = some file' →
        file' ≠ file ∧ fs.directory.lookup n = some file' := by
      intro n hn hlookup
      rw [AList.lookup_insert_ne hn] at hlookup
      obtain ⟨hne, hold⟩ := lookup_erase_of_some hlookup
      refine ⟨?_, hold⟩
      rintro rfl
      exact hne (fs.unshared n source file' hold hsource)
    by_cases hfirst : name = target <;> by_cases hsecond : name' = target
    · exact hfirst.trans hsecond.symm
    · subst hfirst
      rw [AList.lookup_insert, Option.some.injEq] at hname
      exact absurd hname.symm (hother name' hsecond hname').1
    · subst hsecond
      rw [AList.lookup_insert, Option.some.injEq] at hname'
      exact absurd hname'.symm (hother name hfirst hname).1
    · obtain ⟨-, hold⟩ := hother name hfirst hname
      obtain ⟨-, hold'⟩ := hother name' hsecond hname'
      exact fs.unshared name name' file' hold hold'

/-- `rename`: it fails when there is no source, and replaces the target. -/
def rename (fs : FileSystem ν β) (source target : ν) : Option (FileSystem ν β) :=
  match h : fs.directory.lookup source with
  | some file => some (fs.moved source target file h)
  | none => none

variable {fs fs' : FileSystem ν β} {name name' source target : ν} {file file' : Nat}
  {text : List β}

@[simp]
theorem directory_setContents (fs : FileSystem ν β) (file : Nat) (text : List β) :
    (fs.setContents file text).directory = fs.directory := rfl

theorem contents_setContents_self (h : file < fs.files.length) (text : List β) :
    (fs.setContents file text).contents file = text := by
  simp [contents, setContents, h]

theorem contents_setContents_ne (h : file' ≠ file) (fs : FileSystem ν β) (text : List β) :
    (fs.setContents file text).contents file' = fs.contents file' := by
  simp [contents, setContents, List.getElem?_set_ne (Ne.symm h)]

theorem read_of_lookup (h : fs.directory.lookup name = some file) :
    fs.read name = some (fs.contents file) := by
  simp [read, h]

theorem contents_create (hfree : fs.directory.lookup name = none) (file : Nat) :
    (fs.create name hfree).contents file = fs.contents file := by
  simp only [contents, create]
  rcases lt_trichotomy file fs.files.length with hlt | rfl | hgt
  · rw [List.getElem?_append_left hlt]
  · simp
  · rw [List.getElem?_eq_none (by simp; omega), List.getElem?_eq_none (by omega)]

/-- Opening a file leaves every file and every other name as it is, and the name
stands for what was opened. -/
theorem openCreate_spec (fs : FileSystem ν β) (name : ν) :
    (fs.openCreate name).2.directory.lookup name = some (fs.openCreate name).1 ∧
    (∀ name', name' ≠ name →
      (fs.openCreate name).2.directory.lookup name' = fs.directory.lookup name') ∧
    ∀ file, (fs.openCreate name).2.contents file = fs.contents file := by
  unfold openCreate
  split
  · rename_i file hfile
    exact ⟨hfile, fun _ _ => rfl, fun _ => rfl⟩
  · rename_i hfree
    refine ⟨?_, ?_, contents_create hfree⟩
    · exact AList.lookup_insert _
    · intro name' hname
      exact AList.lookup_insert_ne hname

theorem length_le_openCreate (fs : FileSystem ν β) (name : ν) :
    fs.files.length ≤ (fs.openCreate name).2.files.length := by
  unfold openCreate
  split
  · exact le_rfl
  · exact (List.sublist_append_left _ _).length_le

theorem rename_eq_some_iff : fs.rename source target = some fs' ↔
    ∃ file, ∃ h : fs.directory.lookup source = some file,
      fs' = fs.moved source target file h := by
  unfold rename
  split
  · rename_i file hfile
    constructor
    · intro h
      exact ⟨file, hfile, (Option.some.inj h).symm⟩
    · rintro ⟨file', hfile', rfl⟩
      obtain rfl : file = file' := Option.some.inj (hfile.symm.trans hfile')
      rfl
  · rename_i hnone
    simp [hnone]

theorem lookup_rename (h : fs.rename source target = some fs') (name : ν) :
    fs'.directory.lookup name = if name = target then fs.directory.lookup source
      else if name = source then none else fs.directory.lookup name := by
  obtain ⟨file, hsource, rfl⟩ := rename_eq_some_iff.mp h
  change ((fs.directory.erase source).insert target file).lookup name = _
  split
  · rename_i hname
    rw [hname, AList.lookup_insert, hsource]
  · rename_i hname
    rw [AList.lookup_insert_ne hname]
    split
    · rename_i hsame
      rw [hsame, AList.lookup_erase]
    · rename_i hother
      rw [AList.lookup_erase_ne hother]

/-- The file can be found. -/
def Named (fs : FileSystem ν β) (file : Nat) : Prop :=
  ∃ name, fs.directory.lookup name = some file

theorem named_rename (h : fs.rename source target = some fs') (hnamed : fs.Named file) :
    fs'.Named file ∨ fs.directory.lookup target = some file := by
  obtain ⟨name, hname⟩ := hnamed
  by_cases htarget : name = target
  · exact .inr (htarget ▸ hname)
  · left
    by_cases hsource : name = source
    · exact ⟨target, by rw [lookup_rename h, if_pos rfl, ← hsource, hname]⟩
    · exact ⟨name, by rw [lookup_rename h, if_neg htarget, if_neg hsource, hname]⟩

theorem named_openCreate {name : ν} (hnamed : file < fs.files.length → fs.Named file)
    (hfile : file < (fs.openCreate name).2.files.length) : (fs.openCreate name).2.Named file := by
  unfold openCreate at hfile ⊢
  split at hfile
  · exact hnamed hfile
  · rename_i hfree
    rcases Nat.lt_succ_iff_lt_or_eq.mp (by simpa [create] using hfile) with hold | rfl
    · obtain ⟨name', hname'⟩ := hnamed hold
      refine ⟨name', (AList.lookup_insert_ne ?_).trans hname'⟩
      rintro rfl
      rw [hfree] at hname'
      cases hname'
    · exact ⟨name, AList.lookup_insert _⟩

theorem files_rename (h : fs.rename source target = some fs') : fs'.files = fs.files := by
  obtain ⟨_, _, rfl⟩ := rename_eq_some_iff.mp h
  rfl

theorem read_rename (h : fs.rename source target = some fs') (name : ν) :
    fs'.read name = if name = target then fs.read source
      else if name = source then none else fs.read name := by
  have hcontents : fs'.contents = fs.contents := by
    funext file
    rw [contents, contents, files_rename h]
  simp only [read, lookup_rename h, hcontents]
  split
  · rfl
  · split <;> rfl

theorem read_setContents_self (h : fs.directory.lookup name = some file) (text : List β) :
    (fs.setContents file text).read name = some text := by
  rw [read, directory_setContents, h, Option.map_some,
    contents_setContents_self (fs.linked name file h)]

theorem read_setContents_ne (h : fs.directory.lookup name = some file) (hne : name' ≠ name)
    (text : List β) : (fs.setContents file text).read name' = fs.read name' := by
  rw [read, directory_setContents, read]
  cases hlookup : fs.directory.lookup name' with
  | none => rfl
  | some file' =>
      have hfile : file' ≠ file := by
        rintro rfl
        exact hne (fs.unshared name' name file' hlookup h)
      rw [Option.map_some, Option.map_some, contents_setContents_ne hfile]

theorem read_openCreate_ne (fs : FileSystem ν β) (hne : name' ≠ name) :
    (fs.openCreate name).2.read name' = fs.read name' := by
  obtain ⟨-, hothers, hcontents⟩ := fs.openCreate_spec name
  rw [read, hothers name' hne, funext hcontents, read]

theorem contents_openCreate_of_free (h : fs.read name = none) :
    (fs.openCreate name).2.contents (fs.openCreate name).1 = [] := by
  have hfree : fs.directory.lookup name = none := Option.map_eq_none_iff.mp h
  unfold openCreate
  split
  · rename_i file hfile
    rw [hfree] at hfile
    cases hfile
  · rw [contents_create]
    simp [contents]

theorem createTruncate_spec (fs : FileSystem ν β) (name : ν) :
    (fs.createTruncate name).2.directory.lookup name = some (fs.createTruncate name).1 ∧
    (fs.createTruncate name).2.contents (fs.createTruncate name).1 = [] ∧
    ∀ name', name' ≠ name → (fs.createTruncate name).2.read name' = fs.read name' := by
  obtain ⟨hopened, -, -⟩ := fs.openCreate_spec name
  refine ⟨hopened, ?_, ?_⟩
  · exact contents_setContents_self ((fs.openCreate name).2.linked name _ hopened) []
  · intro name' hname
    exact (read_setContents_ne hopened hname []).trans (read_openCreate_ne fs hname)

theorem read_append (h : fs.directory.lookup name = some file) (text : List β) (name' : ν) :
    (fs.append file text).read name' =
      if name' = name then some (fs.contents file ++ text) else fs.read name' := by
  split
  · rename_i hname
    rw [hname]
    exact read_setContents_self h _
  · rename_i hname
    exact read_setContents_ne h hname _

theorem read_overwrite_ne (h : fs.directory.lookup name = some file) (hne : name' ≠ name)
    (text : List β) : (fs.overwrite file text).read name' = fs.read name' :=
  read_setContents_ne h hne _

theorem read_overwrite_of_empty (h : fs.directory.lookup name = some file)
    (hempty : fs.contents file = []) (text : List β) :
    (fs.overwrite file text).read name = some text := by
  rw [overwrite, hempty, List.drop_nil, List.append_nil, read_setContents_self h]

theorem exists_rename (h : fs.read source = some text) (target : ν) :
    ∃ fs', fs.rename source target = some fs' := by
  obtain ⟨file, hfile, -⟩ := Option.map_eq_some_iff.mp h
  exact ⟨_, rename_eq_some_iff.mpr ⟨file, hfile, rfl⟩⟩

section Everything

/-- All that the named files hold. -/
def everything (fs : FileSystem ν β) : List β :=
  fs.directory.entries.flatMap fun e => fs.contents e.2

theorem everything_eq (fs : FileSystem ν β) :
    fs.everything = fs.directory.keys.flatMap fun name => (fs.read name).getD [] := by
  rw [everything, AList.keys, List.keys, List.flatMap_map]
  apply List.flatMap_congr
  rintro ⟨name, file⟩ hentry
  have hlookup : fs.directory.lookup name = some file := AList.mem_lookup_iff.mpr hentry
  rw [read_of_lookup hlookup, Option.getD_some]

theorem flatMap_read_subperm (fs : FileSystem ν β) {names : List ν} (hnodup : names.Nodup) :
    (names.flatMap fun name => (fs.read name).getD []).Subperm fs.everything := by
  have hskip : ∀ ns : List ν, (ns.flatMap fun name => (fs.read name).getD []) =
      (ns.filter (· ∈ fs.directory.keys)).flatMap fun name => (fs.read name).getD [] := by
    intro ns
    induction ns with
    | nil => rfl
    | cons name ns ih =>
        by_cases hname : name ∈ fs.directory.keys
        · rw [List.filter_cons_of_pos (by simpa using hname), List.flatMap_cons, List.flatMap_cons,
            ih]
        · have hnone : fs.read name = none := by
            simp [read, AList.lookup_eq_none.mpr hname]
          rw [List.filter_cons_of_neg (by simpa using hname), List.flatMap_cons, hnone, ih]
          rfl
  have hsub : (names.filter (· ∈ fs.directory.keys)).Subperm fs.directory.keys := by
    apply (hnodup.filter _).subperm
    intro name hname
    simpa using (List.mem_filter.mp hname).2
  obtain ⟨ns, hperm, hsublist⟩ := hsub
  rw [hskip, everything_eq]
  exact ⟨_, hperm.flatMap_right _, hsublist.flatMap _⟩

theorem entries_perm {t : KeyedTable ν Nat} (h : t.lookup name = some file) :
    t.entries.Perm (⟨name, file⟩ :: (t.erase name).entries) := by
  have hentry : (⟨name, file⟩ : Sigma fun _ : ν => Nat) ∈ t.entries := AList.mem_lookup_iff.mp h
  obtain ⟨file', front, rest, -, hsplit, herased⟩ :=
    List.exists_of_kerase (List.mem_keys_of_mem hentry)
  have hfile : file' = file := by
    have hentry' : (⟨name, file'⟩ : Sigma fun _ : ν => Nat) ∈ t.entries := by simp [hsplit]
    exact Option.some.inj ((AList.mem_lookup_iff.mpr hentry').symm.trans h)
  subst hfile
  change t.entries.Perm (⟨name, file'⟩ :: t.entries.kerase name)
  rw [hsplit, ← hsplit, herased, hsplit]
  exact List.perm_middle

theorem everything_openCreate (fs : FileSystem ν β) (name : ν) :
    (fs.openCreate name).2.everything = fs.everything := by
  unfold openCreate
  split
  · rfl
  · rename_i hfree
    have hnew : fs.contents fs.files.length = [] := by simp [contents]
    simp only [everything, contents_create]
    change List.flatMap _ (fs.directory.insert name fs.files.length).entries = _
    rw [AList.entries_insert_of_notMem (AList.lookup_eq_none.mp hfree), List.flatMap_cons, hnew]
    rfl

theorem everything_append (h : fs.directory.lookup name = some file) (text : List β) :
    (fs.append file text).everything.Perm (fs.everything ++ text) := by
  have hrest : ∀ e ∈ (fs.directory.erase name).entries,
      (fs.append file text).contents e.2 = fs.contents e.2 := by
    rintro ⟨name', file'⟩ hentry
    have hlookup : (fs.directory.erase name).lookup name' = some file' :=
      AList.mem_lookup_iff.mpr hentry
    obtain ⟨hname, hold⟩ := lookup_erase_of_some hlookup
    apply contents_setContents_ne
    rintro rfl
    exact hname (fs.unshared name' name file' hold h)
  have hself : (fs.append file text).contents file = fs.contents file ++ text :=
    contents_setContents_self (fs.linked name file h) _
  have hafter : (fs.append file text).everything.Perm
      (fs.contents file ++ text ++ (fs.directory.erase name).entries.flatMap
        fun e => fs.contents e.2) := by
    refine ((entries_perm h).flatMap_right _).trans ?_
    rw [List.flatMap_cons, hself, List.flatMap_congr hrest]
  have hbefore : fs.everything.Perm (fs.contents file ++
      (fs.directory.erase name).entries.flatMap fun e => fs.contents e.2) := by
    exact (entries_perm h).flatMap_right _
  refine hafter.trans (List.Perm.trans ?_ (List.Perm.append_right text hbefore).symm)
  rw [List.append_assoc, List.append_assoc]
  exact List.Perm.append_left _ List.perm_append_comm

theorem everything_rename (h : fs.rename source target = some fs') (hne : source ≠ target) :
    fs.everything.Perm (fs'.everything ++ (fs.read target).getD []) := by
  obtain ⟨file, hsource, rfl⟩ := rename_eq_some_iff.mp h
  have hbefore : fs.everything.Perm (fs.contents file ++
      (fs.directory.erase source).entries.flatMap fun e => fs.contents e.2) :=
    (entries_perm hsource).flatMap_right _
  have hafter : (fs.moved source target file hsource).everything = fs.contents file ++
      ((fs.directory.erase source).erase target).entries.flatMap fun e => fs.contents e.2 := rfl
  have hkeep : (fs.directory.erase source).lookup target = fs.directory.lookup target :=
    AList.lookup_erase_ne (Ne.symm hne)
  rw [hafter]
  refine hbefore.trans ?_
  rw [List.append_assoc]
  apply List.Perm.append_left
  cases htarget : fs.directory.lookup target with
  | none =>
      have habsent : target ∉ (fs.directory.erase source).entries.keys :=
        AList.lookup_eq_none.mp (hkeep.trans htarget)
      have hsame : ((fs.directory.erase source).erase target).entries =
          (fs.directory.erase source).entries := List.kerase_of_notMem_keys habsent
      simp [read, htarget, hsame]
  | some file' =>
      rw [read_of_lookup htarget, Option.getD_some]
      refine ((entries_perm (hkeep.trans htarget)).flatMap_right _).trans ?_
      rw [List.flatMap_cons]
      exact List.perm_append_comm

end Everything

end FileSystem

end Seamless.Library
