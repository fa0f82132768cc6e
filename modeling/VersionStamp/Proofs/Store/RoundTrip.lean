/-
# Whether a project can read what it wrote

A version that was persisted is loaded again if the project's configuration names no stem, or a
blank one, or one that is safe.  With any other stem the write destroys the version file: of all
major numbers at most one is ever loaded again.
-/
import VersionStamp.Proofs.Config.Resolution
import VersionStamp.Proofs.Files.Tree
import VersionStamp.Proofs.Store.Access

namespace VersionStamp

namespace Store

/-! ## A project that names its stem -/

/-- A project in the root directory, with a configuration file and a version file. -/
def projectOf (configuration : String) (v : Version) : Tree :=
  ⟨[(["versionbump.toml"], .file configuration.toUTF8), (["src"], .dir),
    (["src", "version.inc"], .file (Header.render Config.standardStem v).toUTF8)]⟩

/-- The version file of the project holds its header. -/
theorem holds_projectOf (configuration : String) (v : Version) :
    (projectOf configuration v).Holds [] ⟨"/src/version.inc"⟩
      (Header.render Config.standardStem v) := by
  refine ⟨by decide, ["src", "version.inc"], rfl, rfl⟩

/-- The root directory is the root of the project. -/
theorem rootOr_projectOf (configuration : String) (v : Version) :
    (Config.rootOr (Files.ofTree []) ⟨"/"⟩).run (projectOf configuration v) =
      (⟨"/"⟩, projectOf configuration v) :=
  Config.rootOr_run_of_isRoot rfl

/-- The section of the project is the one in its configuration. -/
theorem loadSection_projectOf {configuration : String} {config : Config.Section} (v : Version)
    (hconfig : Config.Section.parse configuration = .ok config) :
    (Config.loadSection (Files.ofTree []) ⟨"/versionbump.toml"⟩).run (projectOf configuration v) =
      (.ok config, projectOf configuration v) := by
  have hholds : (projectOf configuration v).Holds [] ⟨"/versionbump.toml"⟩ configuration :=
    ⟨by decide, ["versionbump.toml"], rfl, rfl⟩
  have hfound : ((Files.ofTree []).isFile ⟨"/versionbump.toml"⟩).run (projectOf configuration v) =
      (true, projectOf configuration v) := rfl
  rw [Config.loadSection_run_of_read hfound (Files.ofTree_read_run hholds), hconfig]
  rfl

/-- The store of the project has the stem that the configuration names. -/
theorem resolve_projectOf {configuration : String} {config : Config.Section} (v : Version)
    (hfile : config.file = none) (hconfig : Config.Section.parse configuration = .ok config) :
    ((Config.resolve (Files.ofTree []) ⟨"/"⟩ none).run (projectOf configuration v)).1 =
      .ok ⟨⟨"/src/version.inc"⟩, config.usedStem⟩ := by
  rw [Config.resolve_run_of_section (rootOr_projectOf configuration v)
    (loadSection_projectOf v hconfig)]
  simp only [Config.Section.usedFile, hfile]
  rfl

/-- Every version can be written to the version file of the project. -/
theorem exists_persist_projectOf (configuration : String) (v : Version) (stem : String)
    (w : Version) :
    ∃ t', (persist (Files.ofTree []) ⟨⟨"/src/version.inc"⟩, stem⟩ w).run
      (projectOf configuration v) = (.ok (), t') := by
  obtain ⟨t', hwrite⟩ :=
    Tree.exists_write_of_holds (holds_projectOf configuration v) (Header.render stem w)
  exact ⟨t', persist_eq_ok_iff.2 (Files.ofTree_write_eq_ok_iff.2 hwrite)⟩

/-- The configuration of the project names a stem. -/
def naming (stem : String) : String :=
  "[version]\nprefix = \"" ++ stem ++ "\"\n"

/-! ## Which configurations survive a write -/

/-- **Which configurations survive a write.**  A store that was resolved takes its stem from the
section of the configuration.  If the section names a safe stem or none that is used, every
version with an accepted suffix is loaded after it was persisted; if not, all versions but those
of one major number are lost. -/
theorem load_after_persist_iff_namesSafeStem {σ : Type} {files : Files (StateM σ)}
    (hfiles : files.ReadsBack) {cwd : Path} {given : Option Path} {s : σ} {store : Store}
    (hresolve : ((Config.resolve files cwd given).run s).1 = .ok store) :
    ∃ root s₁ config s₂, (Config.rootOr files cwd).run s = (root, s₁) ∧
      (Config.loadSection files (root.join Config.fileName)).run s₁ = (.ok config, s₂) ∧
      (config.NamesSafeStem →
        ∀ v, Header.acceptsSuffix v.suffix = true → ∀ t t',
          (store.persist files v).run t = (.ok (), t') →
            ((store.load files).run t').1 = .ok v) ∧
      (¬config.NamesSafeStem →
        ∃ n : UInt32, ∀ v, v.major ≠ n → ∀ t t',
          (store.persist files v).run t = (.ok (), t') →
            ((store.load files).run t').1 ≠ .ok v) := by
  obtain ⟨root, s₁, config, s₂, hroot, hload, rfl⟩ := Config.exists_section_of_resolve hresolve
  refine ⟨root, s₁, config, s₂, hroot, hload, ?_, ?_⟩
  · intro hstem v hsuffix t t' hpersist
    rw [load_of_persist_iff hfiles hpersist]
    exact Header.parse_render (Config.isSafeStem_usedStem_iff.2 hstem) hsuffix
  · intro hstem
    obtain ⟨n, hn⟩ :=
      Header.exists_parse_render_ne fun hsafe => hstem (Config.isSafeStem_usedStem_iff.1 hsafe)
    refine ⟨n, ?_⟩
    intro v hmajor t t' hpersist
    rw [Ne, load_of_persist_iff hfiles hpersist]
    exact hn v hmajor

/-- A project that names a stem of one word loads the version that it persisted. -/
theorem version_of_oneWord_stem_is_loaded :
    ∃ store t', (Files.ofTree []).ReadsBack ∧
      ((Config.resolve (Files.ofTree []) ⟨"/"⟩ none).run
        (projectOf (naming "APP") ⟨0, 21, 0, ""⟩)).1 = .ok store ∧
      (store.persist (Files.ofTree []) ⟨0, 21, 1, "rc1"⟩).run
        (projectOf (naming "APP") ⟨0, 21, 0, ""⟩) = (.ok (), t') ∧
      ((store.load (Files.ofTree [])).run t').1 = .ok ⟨0, 21, 1, "rc1"⟩ := by
  have hconfig : Config.Section.parse (naming "APP") = .ok ⟨none, some "APP"⟩ := by rfl
  have hresolve := resolve_projectOf ⟨0, 21, 0, ""⟩ rfl hconfig
  obtain ⟨t', hpersist⟩ := exists_persist_projectOf (naming "APP") ⟨0, 21, 0, ""⟩ "APP"
    ⟨0, 21, 1, "rc1"⟩
  refine ⟨_, t', Files.ofTree_readsBack [], hresolve, hpersist, ?_⟩
  obtain ⟨root, s₁, config, s₂, hroot, hload, hsafe, -⟩ :=
    load_after_persist_iff_namesSafeStem (Files.ofTree_readsBack []) hresolve
  cases (rootOr_projectOf (naming "APP") ⟨0, 21, 0, ""⟩).symm.trans hroot
  cases (loadSection_projectOf ⟨0, 21, 0, ""⟩ hconfig).symm.trans hload
  have hstem : Config.Section.NamesSafeStem ⟨none, some "APP"⟩ :=
    Config.isSafeStem_usedStem_iff.1 (by decide)
  exact hsafe hstem _ (by decide) _ t' hpersist

/-- A project that names a stem of two words cannot load the version that it persisted. -/
theorem version_of_twoWord_stem_is_lost :
    ∃ store t', (Files.ofTree []).ReadsBack ∧
      ((Config.resolve (Files.ofTree []) ⟨"/"⟩ none).run
        (projectOf (naming "MY APP") ⟨0, 21, 0, ""⟩)).1 = .ok store ∧
      Header.acceptsSuffix "" = true ∧
      (store.persist (Files.ofTree []) ⟨0, 21, 1, ""⟩).run
        (projectOf (naming "MY APP") ⟨0, 21, 0, ""⟩) = (.ok (), t') ∧
      ((store.load (Files.ofTree [])).run t').1 =
        .error (.malformed ⟨"/src/version.inc"⟩ ⟨.major, .notNumeral "APP_VERSION_MAJOR"⟩) := by
  have hconfig : Config.Section.parse (naming "MY APP") = .ok ⟨none, some "MY APP"⟩ := by rfl
  have hused : Config.Section.usedStem ⟨none, some "MY APP"⟩ = "MY APP" := by rfl
  have hresolve := resolve_projectOf ⟨0, 21, 0, ""⟩ rfl hconfig
  rw [hused] at hresolve
  obtain ⟨t', hpersist⟩ := exists_persist_projectOf (naming "MY APP") ⟨0, 21, 0, ""⟩ "MY APP"
    ⟨0, 21, 1, ""⟩
  have hparse : Header.parse (Header.render "MY APP" ⟨0, 21, 1, ""⟩) =
      .error ⟨.major, .notNumeral "APP_VERSION_MAJOR"⟩ :=
    @Header.parse_render_twoWords "MY" "APP" (by decide) (Text.all_not_isBlank_iff.1 (by decide))
      (Text.all_not_isBlank_iff.1 (by decide)) ⟨0, 21, 1, ""⟩ nofun
  refine ⟨_, t', Files.ofTree_readsBack [], hresolve, by decide, hpersist, ?_⟩
  rw [load_of_persist (Files.ofTree_readsBack []) hpersist, hparse]
  rfl

end Store

end VersionStamp
