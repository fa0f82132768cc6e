/-
# One project, seen from anywhere inside it

A configuration belongs to the root of a project.  The directory from which the root was found
matters in one place only: a version file that is given from outside is seen from there, so an
absolute one is not.  What is given from outside decides about the version file and about nothing
else.  The main facts:

* `resolve_run_of_found` : the same store is resolved from a directory and from its root;
* `exists_config_of_resolve_run` : where the path of the store comes from;
* `resolve_map_stem` : what does not depend on the file that is given.
-/
import VersionStamp.Proofs.Config.Search
import VersionStamp.Proofs.Except
import VersionStamp.Proofs.Files.Absolute
import VersionStamp.Proofs.Path.Joining

namespace VersionStamp

namespace Config

/-! ## What a configuration file says -/

/-- The section that the configuration file at a path says: nothing if there is no file, and else
what stands in its text. -/
def Says {σ : Type} (files : Files (StateM σ)) (s : σ) (path : Path) (config : Section) : Prop :=
  ((files.isFile path).run s).1 = false ∧ config = {} ∨
    ((files.isFile path).run s).1 = true ∧
      ∃ text, ((files.read path).run s).1 = .ok text ∧ Section.parse text = .ok config

/-- A file that is given from outside is the same from everywhere, or none is given. -/
def IsFixed (given : Option Path) : Prop :=
  ∀ path, given = some path → path.isAbsolute = true

/-- A file that is the same from everywhere is used alike from everywhere. -/
theorem usedFile_of_isFixed {given : Option Path} (hgiven : IsFixed given) (config : Section)
    (cwd cwd' root : Path) :
    config.usedFile cwd root given = config.usedFile cwd' root given := by
  unfold Section.usedFile
  cases given with
  | some path => simp only [Path.join_of_isAbsolute (hgiven path rfl)]
  | none => cases config.file <;> rfl

/-- In a project with an absolute root the version file has an absolute path, unless another one is
given from outside. -/
theorem isAbsolute_usedFile {given : Option Path} (hgiven : IsFixed given) {root : Path}
    (hroot : root.isAbsolute = true) (config : Section) (cwd : Path) :
    (config.usedFile cwd root given).isAbsolute = true := by
  cases given with
  | some path =>
    rw [Section.usedFile, Path.join_of_isAbsolute (hgiven path rfl)]
    exact hgiven path rfl
  | none =>
    unfold Section.usedFile
    cases config.file with
    | none => exact Path.isAbsolute_join hroot standardFile
    | some file => exact Path.isAbsolute_join hroot ⟨file⟩

variable {σ : Type} {files files' : Files (StateM σ)} {s : σ} {start root : Path}

section

variable (hlooks : files.Looks id)
include hlooks

/-- The section that is loaded is what the configuration file says. -/
theorem says_of_loadSection {path : Path} {config : Section}
    (h : ((loadSection files path).run s).1 = .ok config) : Says files s path config := by
  have hasked := (hlooks.leaves_isFile path).run_eq s
  have hread := (hlooks.leaves_read path).run_eq s
  cases hfile : ((files.isFile path).run s).1 with
  | false =>
    rw [hfile] at hasked
    rw [loadSection_run_of_missing hasked] at h
    exact Or.inl ⟨hfile, (Except.ok.inj h).symm⟩
  | true =>
    rw [hfile] at hasked
    cases htext : ((files.read path).run s).1 with
    | error refusal =>
      rw [htext] at hread
      rw [loadSection_run_of_unreadable hasked hread] at h
      cases h
    | ok text =>
      rw [htext] at hread
      rw [loadSection_run_of_read hasked hread] at h
      exact Or.inr ⟨hfile, text, htext, mapError_eq_ok_iff.1 h⟩

/-! ## The project of a directory -/

/-- A store is resolved in the same way from a directory and from the root that is found there. -/
theorem resolve_run_of_found (hfound : ((findRoot? files start).run s).1 = some root)
    {given : Option Path} (hgiven : IsFixed given) :
    (resolve files start given).run s = (resolve files root given).run s := by
  obtain ⟨-, hstart, hroot⟩ := rootOr_run_of_found hlooks hfound
  rw [resolve_run_of_root hlooks hstart, resolve_run_of_root hlooks hroot]
  simp only [usedFile_of_isFixed hgiven _ start root root]

/-- The path of a store is the file that is given, seen from the directory of the search; else the
file that the configuration names, seen from the root; else the standard file. -/
theorem exists_config_of_resolve_run (hroot : (rootOr files start).run s = (root, s))
    {given : Option Path} {store : Store}
    (h : ((resolve files start given).run s).1 = .ok store) :
    ∃ config, Says files s (root.join fileName) config ∧
      (∀ path, given = some path → store.path = start.join path) ∧
      (∀ file, given = none → config.file = some file → store.path = root.join ⟨file⟩) ∧
      (given = none → config.file = none → store.path = root.join standardFile) := by
  rw [resolve_run_of_root hlooks hroot] at h
  obtain ⟨config, hload, rfl⟩ := map_eq_ok_iff.1 h
  refine ⟨config, says_of_loadSection hlooks hload, ?_, ?_, ?_⟩
  · rintro path rfl
    rfl
  · rintro file rfl hfile
    simp only [Section.usedFile, hfile]
  · rintro rfl hfile
    simp only [Section.usedFile, hfile]

/-- Whether a store is resolved, and with which stem, does not depend on what is given. -/
theorem resolve_map_stem (hroot : (rootOr files start).run s = (root, s))
    (given given' : Option Path) :
    ((resolve files start given).run s).1.map Store.stem =
      ((resolve files start given').run s).1.map Store.stem := by
  rw [resolve_run_of_root hlooks hroot, resolve_run_of_root hlooks hroot]
  cases ((loadSection files (root.join fileName)).run s).1 <;> rfl

end

/-! ## One root, seen from two places -/

/-- Nothing is loaded in another way where the files are the same at absolute paths. -/
theorem loadSection_eq (hagree : files.AgreeOnAbsolute files') {path : Path}
    (hpath : path.isAbsolute = true) : loadSection files path = loadSection files' path := by
  rw [loadSection, loadSection, hagree.isFile_eq hpath, hagree.read_eq hpath]

/-- In a project with an absolute root, the same store is resolved from two directories in which
that root is found; and its path is absolute. -/
theorem resolve_run_eq (hlooks : files.Looks id) (hlooks' : files'.Looks id)
    (hagree : files.AgreeOnAbsolute files') {start' : Path}
    (hfound : ((findRoot? files start).run s).1 = some root)
    (hfound' : ((findRoot? files' start').run s).1 = some root)
    (hstart : start.isAbsolute = true) {given : Option Path} (hgiven : IsFixed given) :
    (resolve files start given).run s = (resolve files' start' given).run s ∧
      ∀ store, ((resolve files start given).run s).1 = .ok store →
        store.path.isAbsolute = true := by
  obtain ⟨hmem, hroot, -⟩ := rootOr_run_of_found hlooks hfound
  obtain ⟨-, hroot', -⟩ := rootOr_run_of_found hlooks' hfound'
  have habsolute := Path.isAbsolute_of_mem_ancestors hstart hmem
  have hload := loadSection_eq hagree (Path.isAbsolute_join habsolute fileName)
  rw [resolve_run_of_root hlooks hroot, resolve_run_of_root hlooks' hroot', hload]
  constructor
  · simp only [usedFile_of_isFixed hgiven _ start start' root]
  · intro store hstore
    obtain ⟨config, -, rfl⟩ := map_eq_ok_iff.1 hstore
    exact isAbsolute_usedFile hgiven habsolute config start

end Config

end VersionStamp
