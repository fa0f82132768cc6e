/-
# How a store is resolved

The store of a directory comes from the section of the configuration file in the root of its
project.  The stem is the one named there, unless it is blank.
-/
import VersionStamp.Config
import VersionStamp.Proofs.Except
import VersionStamp.Proofs.Header.RoundTrip
import VersionStamp.Proofs.Path.Ancestors

namespace VersionStamp

namespace Config

/-! ## The stem that is used -/

/-- The section names a stem behind which versions are read back, or one that is not used. -/
def Section.NamesSafeStem (s : Section) : Prop :=
  ∀ stem, s.stem = some stem →
    (∀ c ∈ stem.toList, Text.isBlank c = true) ∨ Header.IsSafeStem stem

/-- The stem that is used is safe if the section names no other. -/
theorem isSafeStem_usedStem_iff {s : Section} :
    Header.IsSafeStem s.usedStem ↔ s.NamesSafeStem := by
  have hstandard : Header.IsSafeStem standardStem := by decide
  unfold Section.usedStem Section.NamesSafeStem
  cases hstem : s.stem with
  | none => simp [hstandard]
  | some stem =>
    rw [Option.filter_some]
    by_cases hblank : ∀ c ∈ stem.toList, Text.isBlank c = true
    · have hall : stem.toList.all Text.isBlank = true := List.all_eq_true.2 hblank
      simp only [hall, Bool.not_true, Bool.false_eq_true, ↓reduceIte, Option.getD_none, hstandard]
      exact iff_of_true trivial fun _ hs => Or.inl (Option.some.inj hs ▸ hblank)
    · have hall : stem.toList.all Text.isBlank = false := by simpa using hblank
      simp [hall, hblank]

/-! ## The section that is used -/

variable {σ : Type} {files : Files (StateM σ)} {cwd : Path} {given : Option Path} {s : σ}

/-- A directory that is a root is the root of its own project. -/
theorem rootOr_run_of_isRoot {s' : σ} (h : (isRoot files cwd).run s = (true, s')) :
    (rootOr files cwd).run s = (cwd, s') := by
  obtain ⟨rest, hrest⟩ := cwd.exists_ancestors_eq_cons
  rw [rootOr, findRoot?, hrest, List.findM?]
  simp only [StateT.run_bind, h]
  rfl

/-- Where there is no configuration file, nothing is said. -/
theorem loadSection_run_of_missing {path : Path} {s' : σ}
    (hfile : (files.isFile path).run s = (false, s')) :
    (loadSection files path).run s = (.ok {}, s') := by
  rw [loadSection, StateT.run_bind, hfile]
  rfl

/-- A configuration file that can be read gives the section in its text. -/
theorem loadSection_run_of_read {path : Path} {text : String} {s₁ s₂ : σ}
    (hfile : (files.isFile path).run s = (true, s₁))
    (hread : (files.read path).run s₁ = (.ok text, s₂)) :
    (loadSection files path).run s = ((Section.parse text).mapError (.badConfig path), s₂) := by
  rw [loadSection, StateT.run_bind, hfile]
  change ((files.read path >>= _).run s₁) = _
  rw [StateT.run_bind, hread]
  rfl

/-- A configuration file that cannot be read is a fault. -/
theorem loadSection_run_of_unreadable {path : Path} {refusal : Refusal} {s₁ s₂ : σ}
    (hfile : (files.isFile path).run s = (true, s₁))
    (hread : (files.read path).run s₁ = (.error refusal, s₂)) :
    (loadSection files path).run s = (.error (.badConfig path (.unreadable refusal)), s₂) := by
  rw [loadSection, StateT.run_bind, hfile]
  change ((files.read path >>= _).run s₁) = _
  rw [StateT.run_bind, hread]
  rfl

/-- The root is found first, and the store is made from the section in it. -/
theorem resolve_run (files : Files (StateM σ)) (cwd : Path) (given : Option Path) (s : σ) :
    (resolve files cwd given).run s =
      let found := (rootOr files cwd).run s
      let loaded := (loadSection files (found.1.join fileName)).run found.2
      (loaded.1.map fun config => ⟨config.usedFile cwd found.1 given, config.usedStem⟩,
        loaded.2) := by
  rw [resolve, StateT.run_bind]
  rcases (rootOr files cwd).run s with ⟨root, s₁⟩
  change ((loadSection files (root.join fileName) >>= _).run s₁) = _
  rw [StateT.run_bind]
  rcases hload : (loadSection files (root.join fileName)).run s₁ with ⟨fault | config, s₂⟩
  · simp only [hload]
    rfl
  · simp only [hload]
    rfl

/-- The store is made from the section that was loaded in the root. -/
theorem resolve_run_of_section {root : Path} {config : Section} {s₁ s₂ : σ}
    (hroot : (rootOr files cwd).run s = (root, s₁))
    (hload : (loadSection files (root.join fileName)).run s₁ = (.ok config, s₂)) :
    (resolve files cwd given).run s =
      (.ok ⟨config.usedFile cwd root given, config.usedStem⟩, s₂) := by
  rw [resolve_run, hroot]
  dsimp only
  rw [hload]
  rfl

/-- In a directory with the standard version file and no configuration file, the standard file and
the standard stem are used. -/
theorem resolve_run_of_unconfigured
    (hmissing : (files.isFile (cwd.join fileName)).run s = (false, s))
    (hfile : (files.isFile (cwd.join standardFile)).run s = (true, s)) :
    (resolve files cwd none).run s = (.ok ⟨cwd.join standardFile, standardStem⟩, s) := by
  have hroot : (isRoot files cwd).run s = (true, s) := by
    rw [isRoot, StateT.run_bind, hmissing]
    exact hfile
  exact resolve_run_of_section (rootOr_run_of_isRoot hroot) (loadSection_run_of_missing hmissing)

/-- A store that is resolved is made from a section that was loaded in the root of a project. -/
theorem exists_section_of_resolve {store : Store}
    (h : ((resolve files cwd given).run s).1 = .ok store) :
    ∃ root s₁ config s₂, (rootOr files cwd).run s = (root, s₁) ∧
      (loadSection files (root.join fileName)).run s₁ = (.ok config, s₂) ∧
      store = ⟨config.usedFile cwd root given, config.usedStem⟩ := by
  rw [resolve_run] at h
  rcases hroot : (rootOr files cwd).run s with ⟨root, s₁⟩
  rw [hroot] at h
  obtain ⟨config, hload, hstore⟩ := map_eq_ok_iff.1 h
  exact ⟨root, s₁, config, _, rfl, Prod.ext hload rfl, hstore⟩

end Config

end VersionStamp
