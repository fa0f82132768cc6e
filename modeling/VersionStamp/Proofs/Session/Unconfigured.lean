/-
# Sessions in a project without a configuration

A project needs no configuration file.  Without one, its root is where the standard version file
is, and the standard stem is used.  So where there is nothing but such a version file, a session in
the root is a session on this file; it succeeds whatever version the file holds, since nothing
refuses to store another one.
-/
import VersionStamp.Proofs.Config.Resolution
import VersionStamp.Proofs.Files.Tree
import VersionStamp.Proofs.Session.Update

namespace VersionStamp

namespace Session

/-! ## A tree with a version file -/

/-- A tree with nothing but a version file, in the standard place. -/
def unconfigured (text : String) : Tree :=
  ⟨[(["src"], .dir), (["src", "version.inc"], .file text.toUTF8)]⟩

/-- The store of such a tree, seen from its root. -/
def standardStore : Store := ⟨⟨"/src/version.inc"⟩, Config.standardStem⟩

/-- The text is held in the version file. -/
theorem holds_unconfigured (text : String) :
    (unconfigured text).Holds [] ⟨"/src/version.inc"⟩ text :=
  ⟨by decide, ["src", "version.inc"], rfl, rfl⟩

/-- The standard store is resolved in the root. -/
theorem resolve_unconfigured (text : String) :
    (Config.resolve (Files.ofTree []) ⟨"/"⟩ none).run (unconfigured text) =
      (.ok standardStore, unconfigured text) :=
  Config.resolve_run_of_unconfigured rfl rfl

/-- The version that the text is read as is loaded. -/
theorem load_unconfigured {text : String} {v : Version} (h : Header.parse text = .ok v) :
    (standardStore.load (Files.ofTree [])).run (unconfigured text) = (.ok v, unconfigured text) :=
  Store.load_run_of_parse h (Files.ofTree_read_run (holds_unconfigured text))

/-- All versions are stored in turn. -/
theorem accepts_unconfigured (text : String) (steps : List Bump.Step) (v : Version) :
    Bump.Sink.Accepts (standardStore.persist (Files.ofTree [])) (Bump.versions steps v)
      (unconfigured text) :=
  (accepts_of_holds (Files.ofTree_keeps [] standardStore.path) steps (holds_unconfigured text)).1

/-! ## A session in the root -/

/-- **A session in a project without a configuration.**  The version file is found, all steps of the
request are stored in it, and the session ends with the effect of its request. -/
theorem perform_unconfigured {text : String} {v : Version} (h : Header.parse text = .ok v)
    {o : Options} (hfile : o.file = none) :
    (perform (Files.ofTree []) ⟨"/"⟩ o).run (unconfigured text) =
      ((Log.note o.verbose (located standardStore) ++ (announce o.verbose o.request ++
            Bump.storedEntries o.verbose o.request.steps v ++
            bumpedEntries o.verbose o.request.steps v),
          .ok (o.request.effect v)),
        Bump.Sink.stateAfter (standardStore.persist (Files.ofTree []))
          (Bump.versions o.request.steps v) (unconfigured text)) := by
  have hresolve := resolve_unconfigured text
  rw [← hfile] at hresolve
  have hbump := bump_run_of_accepts o.verbose (accepts_unconfigured text o.request.steps v)
  rw [perform_run_of_resolved hresolve, update_run_of_loaded (load_unconfigured h), hbump,
    Bump.applyAll_steps]

/-! ## A version written by hand -/

/-- A header as it may be written by hand: a sign, leading zeros, a remark and no quotes. -/
def handwritten : String :=
  "#define A 1\n#define B +02 // raised\n#define C 003\n#define D rc1\n"

/-- The handwritten header is read. -/
theorem parse_handwritten : Header.parse handwritten = .ok ⟨1, 2, 3, "rc1"⟩ := by
  rfl

/-- A tree with nothing but the handwritten version file. -/
def handwrittenTree : Tree :=
  unconfigured handwritten

/-- A session that patches the handwritten version. -/
theorem exists_perform_handwritten :
    ∃ log t, (perform (Files.ofTree []) ⟨"/"⟩ { request := { patch := true } }).run
      handwrittenTree = ((log, .ok ⟨1, 2, 4, ""⟩), t) :=
  ⟨_, _, perform_unconfigured parse_handwritten rfl⟩

end Session

end VersionStamp
