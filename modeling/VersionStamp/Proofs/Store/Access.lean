/-
# Loading and persisting

What a store does comes down to one reading or one write at its path.
-/
import VersionStamp.Store
import VersionStamp.Proofs.Except
import VersionStamp.Proofs.Files.Laws
import VersionStamp.Proofs.Header.RoundTrip

namespace VersionStamp

namespace Store

variable {σ : Type} {files : Files (StateM σ)} {store : Store} {s s' : σ}

/-! ## One access to the file -/

/-- The version that the outcome of a reading stands for. -/
def versionOf (store : Store) : Except Refusal String → Except Fault Version
  | .error refusal => .error (.ofRefusal store.path refusal)
  | .ok text => (Header.parse text).mapError (.malformed store.path)

/-- Loading is one reading. -/
theorem load_run (files : Files (StateM σ)) (store : Store) (s : σ) :
    (store.load files).run s =
      (versionOf store ((files.read store.path).run s).1, ((files.read store.path).run s).2) := by
  rw [load, StateT.run_bind]
  rcases (files.read store.path).run s with ⟨_ | _, s'⟩ <;> rfl

/-- The version is loaded that the text of the file is read as. -/
theorem load_run_of_parse {text : String} {v : Version} (hparse : Header.parse text = .ok v)
    (hread : (files.read store.path).run s = (.ok text, s')) :
    (store.load files).run s = (.ok v, s') := by
  rw [load_run, hread, versionOf, hparse]
  rfl

/-- A version that is loaded is what the text of the file is read as. -/
theorem exists_parse_of_load {v : Version} (h : (store.load files).run s = (.ok v, s')) :
    ∃ text, ((files.read store.path).run s).1 = .ok text ∧ Header.parse text = .ok v := by
  rw [load_run] at h
  have hversion := congrArg Prod.fst h
  cases hread : ((files.read store.path).run s).1 with
  | error refusal =>
    rw [hread] at hversion
    cases hversion
  | ok text =>
    rw [hread] at hversion
    exact ⟨text, rfl, mapError_eq_ok_iff.1 hversion⟩

/-- Persisting is one write. -/
theorem persist_run (files : Files (StateM σ)) (store : Store) (v : Version) (s : σ) :
    (store.persist files v).run s =
      (((files.write store.path (Header.render store.stem v)).run s).1.mapError
        (.ofRefusal store.path), ((files.write store.path (Header.render store.stem v)).run s).2) :=
  rfl

/-- A version is persisted if its header is written. -/
theorem persist_eq_ok_iff {v : Version} :
    (store.persist files v).run s = (.ok (), s') ↔
      (files.write store.path (Header.render store.stem v)).run s = (.ok (), s') := by
  rw [persist_run]
  rcases (files.write store.path (Header.render store.stem v)).run s with ⟨refusal | _, t⟩
  · constructor <;> intro h <;> cases (Prod.mk.inj h).1
  · constructor <;> intro h <;> cases h <;> rfl

/-! ## Loading what was persisted -/

/-- After a version was persisted, its header is read. -/
theorem load_of_persist (hfiles : files.ReadsBack) {v : Version}
    (h : (store.persist files v).run s = (.ok (), s')) :
    ((store.load files).run s').1 =
      (Header.parse (Header.render store.stem v)).mapError (.malformed store.path) := by
  rw [load_run, hfiles _ _ _ _ (persist_eq_ok_iff.1 h), versionOf]

/-- After a version was persisted, what is loaded is what its header is read as. -/
theorem load_of_persist_iff (hfiles : files.ReadsBack) {v w : Version}
    (h : (store.persist files v).run s = (.ok (), s')) :
    ((store.load files).run s').1 = .ok w ↔
      Header.parse (Header.render store.stem v) = .ok w := by
  rw [load_of_persist hfiles h]
  exact mapError_eq_ok_iff

/-! ## A file that is there to stay -/

section

variable {holds : σ → String → Prop} (hkeeps : files.Keeps store.path holds)
include hkeeps

/-- The version of a file that is there to stay is loaded, and its text is left there. -/
theorem load_of_holds {text : String} {v : Version} (hholds : holds s text)
    (hparse : Header.parse text = .ok v) :
    ∃ s', (store.load files).run s = (.ok v, s') ∧ holds s' text := by
  obtain ⟨s', hread, hleft⟩ := hkeeps.read_holds hholds
  exact ⟨s', load_run_of_parse hparse hread, hleft⟩

/-- Any version can be written over a file that is there to stay. -/
theorem persist_of_holds {text : String} (hholds : holds s text) (v : Version) :
    ∃ s', (store.persist files v).run s = (.ok (), s') ∧
      holds s' (Header.render store.stem v) := by
  obtain ⟨s', hwrite, hnew⟩ := hkeeps.write_holds (Header.render store.stem v) hholds
  exact ⟨s', persist_eq_ok_iff.2 hwrite, hnew⟩

end

end Store

end VersionStamp
