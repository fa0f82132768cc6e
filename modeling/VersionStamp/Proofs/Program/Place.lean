/-
# A run of the program from anywhere in a project

Two runs with the same command line, from two directories in which the same absolute root is found,
are the same run: the store is resolved in the same way, its path is absolute, and nothing else
depends on where the program was started.  A version file that is given from outside must be given
by an absolute path, since a relative one is seen from the directory of the run.
-/
import VersionStamp.Proofs.Config.Project
import VersionStamp.Proofs.Program.Frame
import VersionStamp.Proofs.Session.Unconfigured

namespace VersionStamp

/-! ## The store of a project -/

section

variable {m : Type → Type} [Monad m] {files files' : Files m} {store : Store}

/-- A version is loaded alike where the files are the same at absolute paths. -/
theorem Store.load_eq (hagree : files.AgreeOnAbsolute files')
    (hpath : store.path.isAbsolute = true) : store.load files = store.load files' := by
  rw [load, load, hagree.read_eq hpath]

/-- A version is persisted alike where the files are the same at absolute paths. -/
theorem Store.persist_eq (hagree : files.AgreeOnAbsolute files')
    (hpath : store.path.isAbsolute = true) : store.persist files = store.persist files' := by
  funext v
  rw [persist, persist, hagree.write_eq hpath]

/-- A store is updated alike where the files are the same at absolute paths. -/
theorem Session.update_eq (hagree : files.AgreeOnAbsolute files')
    (hpath : store.path.isAbsolute = true) (verbose : Bool) (r : Bump.Request) :
    update files store verbose r = update files' store verbose r := by
  simp only [update, bump, Store.load_eq hagree hpath, Store.persist_eq hagree hpath]

end

/-! ## Sessions and runs -/

variable {σ : Type} {files files' : Files (StateM σ)} {s : σ} {cwd cwd' root : Path} {o : Options}

namespace Session

/-- A request is performed alike if the same store is resolved, and the files are the same there. -/
theorem perform_run_eq (hagree : files.AgreeOnAbsolute files')
    (hresolve : (Config.resolve files cwd o.file).run s = (Config.resolve files' cwd' o.file).run s)
    (hpath : ∀ store, ((Config.resolve files cwd o.file).run s).1 = .ok store →
      store.path.isAbsolute = true) :
    (perform files cwd o).run s = (perform files' cwd' o).run s := by
  rcases hresolved : (Config.resolve files cwd o.file).run s with ⟨fault | store, s₁⟩
  · rw [perform_run_of_unresolved hresolved, perform_run_of_unresolved (hresolve ▸ hresolved)]
  · rw [perform_run_of_resolved hresolved, perform_run_of_resolved (hresolve ▸ hresolved),
      update_eq hagree (hpath store (congrArg Prod.fst hresolved))]

/-- A session is held alike if its request is performed alike. -/
theorem run_eq_of_perform (h : (perform files cwd o).run s = (perform files' cwd' o).run s) :
    (run files cwd o).run s = (run files' cwd' o).run s := by
  cases hrequired : readRequired o.require with
  | error fault =>
    rw [run, run, hrequired]
  | ok required =>
    rcases hperform : (perform files cwd o).run s with ⟨⟨log, result⟩, s'⟩
    have hrun := run_of_readRequired_ok (o := o) hrequired hperform
    have hrun' := run_of_readRequired_ok (o := o) hrequired (h.symm.trans hperform)
    exact hrun.trans hrun'.symm

end Session

namespace Program

/-- A run of the program is the same if the session that it starts, if any, is the same. -/
theorem run_eq_of_session {style : Log.Style} {fileValue : Option String} {arguments : List String}
    (h : ∀ o, Command.parse fileValue arguments = .run o →
      (Session.run files cwd o).run s = (Session.run files' cwd' o).run s) :
    (run files cwd style fileValue arguments).run s =
      (run files' cwd' style fileValue arguments).run s := by
  cases hparse : Command.parse fileValue arguments with
  | run o => rw [run_of_parse hparse, run_of_parse hparse, h o hparse]
  | _ =>
    rw [run, run, hparse]

/-- **A project is the same from everywhere inside it.**  Let asking and reading change nothing.

From a directory in which a root is found, the same store is resolved as from that root, or
resolving fails in the same way, if the file that is given is absolute or none is given.  So two
runs in which the same root is found, from an absolute directory and from any other, end with the
same status, print the same and leave the same files, if the files at absolute paths are the same
for both.

From any directory, with or without a root, the path of the store is the given file seen from the
directory, else the file that the configuration names, seen from the root, else the standard file
in the root.  Whether resolving fails, and which stem is used, does not depend on what is given. -/
theorem same_from_everywhere (hlooks : files.Looks id) (hlooks' : files'.Looks id)
    (hagree : files.AgreeOnAbsolute files') (s : σ) :
    (∀ start root given, ((Config.findRoot? files start).run s).1 = some root →
      Config.IsFixed given →
        (Config.resolve files start given).run s = (Config.resolve files root given).run s) ∧
    (∀ cwd cwd' root style fileValue arguments, cwd.isAbsolute = true →
      ((Config.findRoot? files cwd).run s).1 = some root →
      ((Config.findRoot? files' cwd').run s).1 = some root →
      (∀ o, Command.parse fileValue arguments = .run o → Config.IsFixed o.file) →
        (run files cwd style fileValue arguments).run s =
          (run files' cwd' style fileValue arguments).run s) ∧
    ∀ start, ∃ root, (Config.rootOr files start).run s = (root, s) ∧
      (∀ given store, ((Config.resolve files start given).run s).1 = .ok store →
        ∃ config, Config.Says files s (root.join Config.fileName) config ∧
          (∀ path, given = some path → store.path = start.join path) ∧
          (∀ file, given = none → config.file = some file → store.path = root.join ⟨file⟩) ∧
          (given = none → config.file = none → store.path = root.join Config.standardFile)) ∧
      ∀ given given', ((Config.resolve files start given).run s).1.map Store.stem =
        ((Config.resolve files start given').run s).1.map Store.stem := by
  refine ⟨?_, ?_, ?_⟩
  · intro start root given hfound hgiven
    exact Config.resolve_run_of_found hlooks hfound hgiven
  · intro cwd cwd' root style fileValue arguments hcwd hfound hfound' hgiven
    apply run_eq_of_session
    intro o hparse
    obtain ⟨hresolve, hpath⟩ := Config.resolve_run_eq hlooks hlooks' hagree hfound hfound' hcwd
      (hgiven o hparse)
    exact Session.run_eq_of_perform (Session.perform_run_eq hagree hresolve hpath)
  · intro start
    have hroot := (Config.leaves_rootOr hlooks start).run_eq s
    refine ⟨_, hroot, ?_, ?_⟩
    · intro given store hstore
      exact Config.exists_config_of_resolve_run hlooks hroot hstore
    · intro given given'
      exact Config.resolve_map_stem hlooks hroot given given'

/-- A configuration that names the version file. -/
def namingText : String :=
  "[version]\nfile = \"ver.inc\"\n"

/-- A project with two directories, one below the other. -/
def nestedTree : Tree :=
  ⟨[(["proj"], .dir), (["proj", "a"], .dir), (["proj", "a", "b"], .dir),
    (["proj", "versionbump.toml"], .file namingText.toUTF8),
    (["proj", "ver.inc"], .file Session.handwritten.toUTF8)]⟩

/-- From both directories the root of the project is found. -/
theorem findRoot?_in_nestedTree :
    ((Config.findRoot? (Files.ofTree ["proj", "a"]) ⟨"/proj/a"⟩).run nestedTree).1 =
        some ⟨"/proj"⟩ ∧
      ((Config.findRoot? (Files.ofTree ["proj", "a", "b"]) ⟨"/proj/a/b"⟩).run nestedTree).1 =
        some ⟨"/proj"⟩ := by
  have hproj : Path.ancestors ⟨"/proj/a"⟩ = ⟨"/proj/a"⟩ :: Path.ancestors ⟨"/proj"⟩ :=
    Path.ancestors_of_parent? (by rfl)
  have ha : Path.ancestors ⟨"/proj/a/b"⟩ = ⟨"/proj/a/b"⟩ :: Path.ancestors ⟨"/proj/a"⟩ :=
    Path.ancestors_of_parent? (by rfl)
  obtain ⟨rest, hrest⟩ := Path.exists_ancestors_eq_cons ⟨"/proj"⟩
  rw [Config.findRoot?_run (Files.ofTree_looks _), Config.findRoot?_run (Files.ofTree_looks _),
    ha, hproj, hrest]
  exact ⟨rfl, rfl⟩

/-- From both directories a patch makes the same run, and it is stored in the file that the
configuration names. -/
theorem same_from_nested_directories :
    (Config.resolve (Files.ofTree ["proj", "a"]) ⟨"/proj/a"⟩ none).run nestedTree =
        (.ok ⟨⟨"/proj/ver.inc"⟩, "LC0"⟩, nestedTree) ∧
      (run (Files.ofTree ["proj", "a"]) ⟨"/proj/a"⟩ .plain none ["--patch"]).run nestedTree =
        (run (Files.ofTree ["proj", "a", "b"]) ⟨"/proj/a/b"⟩ .plain none ["--patch"]).run
          nestedTree := by
  obtain ⟨hfound, hfound'⟩ := findRoot?_in_nestedTree
  have hparse : Command.parse none ["--patch"] = .run { request := { patch := true } } := by rfl
  have hnone : Config.IsFixed none := fun _ hpath => nomatch hpath
  obtain ⟨hresolve, hrun, -⟩ := same_from_everywhere (Files.ofTree_looks ["proj", "a"])
    (Files.ofTree_looks ["proj", "a", "b"]) (Files.ofTree_agreeOnAbsolute _ _) nestedTree
  constructor
  · -- The store is resolved from the root, and there from what the configuration says.
    have hroot : (Config.rootOr (Files.ofTree ["proj", "a"]) ⟨"/proj"⟩).run nestedTree =
        (⟨"/proj"⟩, nestedTree) := Config.rootOr_run_of_isRoot rfl
    have hsection : (Config.loadSection (Files.ofTree ["proj", "a"])
        (Path.join ⟨"/proj"⟩ Config.fileName)).run nestedTree =
        (.ok { file := some "ver.inc" }, nestedTree) := by rfl
    rw [hresolve ⟨"/proj/a"⟩ ⟨"/proj"⟩ none hfound hnone,
      Config.resolve_run_of_section hroot hsection]
    rfl
  · refine hrun ⟨"/proj/a"⟩ ⟨"/proj/a/b"⟩ ⟨"/proj"⟩ .plain none ["--patch"] rfl hfound hfound' ?_
    intro o ho
    rw [hparse] at ho
    cases ho
    exact hnone

end Program

end VersionStamp
