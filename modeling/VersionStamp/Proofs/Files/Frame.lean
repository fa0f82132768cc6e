/-
# What operations on files leave as it is

Asking and reading leave the files as they are, and a write changes the bytes of one file or
nothing.  Nothing is said of when an operation is refused: a file may be protected and a disk may
be full.  The main facts:

* `ActsOn` : what can be relied on, for any state in which a tree is seen;
* `ofTree_actsOn`, `ofDisk_actsOn` : it holds of trees, and of a disk whose room runs out.
-/
import VersionStamp.Proofs.Files.Tree

namespace VersionStamp

namespace Tree

variable {t t' : Tree} {place : Place}

/-- Of two nodes that are put at one place, the last one stays. -/
theorem set_set (t : Tree) (place : Place) (first last : Node) :
    (t.set place first).set place last = t.set place last := by
  simp [set, List.filter_filter]

/-- A write puts the bytes of the text at the place that the path leads to. -/
theorem eq_set_of_write {here : Place} {p : Path} {text : String}
    (h : t.write here p text = .ok t') (hlocate : t.locate here p = .ok place) :
    t' = t.set place (.file text.toUTF8) := by
  by_cases hslash : p.text.toList.getLast? = some '/'
  · -- A path that asks for a directory is never written to.
    unfold write at h
    cases hbare : t.locate here (withoutSlashes p) <;> simp [hbare, hslash] at h
  · rw [write, withoutSlashes_eq_self hslash, hlocate] at h
    simp only [hslash, if_false] at h
    split at h
    · cases h
    · exact (Except.ok.inj h).symm

/-- A file that is read is there, and holds the bytes of its text. -/
theorem exists_file_of_read {here : Place} {p : Path} {text : String}
    (h : t.read here p = .ok text) :
    ∃ place, t.locate here p = .ok place ∧ t.at? place = some (.file text.toUTF8) := by
  unfold read at h
  cases hlocate : t.locate here p with
  | error e => simp [hlocate] at h
  | ok place =>
    refine ⟨place, rfl, ?_⟩
    simp only [hlocate] at h
    split at h
    · cases h
    · cases h
    next bytes hnode =>
      cases htext : String.fromUTF8? bytes with
      | none => simp [htext] at h
      | some found =>
        rw [htext] at h
        have hbytes : bytes = found.toUTF8 := by
          unfold String.fromUTF8? at htext
          split at htext
          · cases htext
            rfl
          · cases htext
        rw [hnode, hbytes, Except.ok.inj h]

end Tree

/-! ## Actions that leave a view of the state alone -/

section

variable {σ τ α β : Type}

/-- An action leaves what is seen of the state as it is. -/
def Leaves (view : σ → τ) (action : StateM σ α) : Prop :=
  ∀ s, view (action.run s).2 = view s

variable {view : σ → τ}

/-- What is left is the same before a run and after it. -/
theorem Leaves.eq_of_run {action : StateM σ α} (h : Leaves view action) {s s' : σ} {a : α}
    (hrun : action.run s = (a, s')) : view s' = view s := by
  have hleft := h s
  rw [hrun] at hleft
  exact hleft

/-- A run that leaves the whole state gives the state back. -/
theorem Leaves.run_eq {action : StateM σ α} (h : Leaves id action) (s : σ) :
    action.run s = ((action.run s).1, s) :=
  Prod.ext rfl (h s)

/-- A mere result leaves all as it is. -/
theorem leaves_pure (a : α) : Leaves view (pure a : StateM σ α) :=
  fun _ => rfl

/-- Two actions in a row leave what both leave. -/
theorem Leaves.bind {first : StateM σ α} {next : α → StateM σ β} (hfirst : Leaves view first)
    (hnext : ∀ a, Leaves view (next a)) : Leaves view (first >>= next) := by
  intro s
  rw [StateT.run_bind]
  exact (hnext (first.run s).1 (first.run s).2).trans (hfirst s)

/-- A search leaves what each of its tests leaves. -/
theorem leaves_findM? {test : α → StateM σ Bool} (htest : ∀ a, Leaves view (test a))
    (l : List α) : Leaves view (l.findM? test) := by
  induction l with
  | nil => exact leaves_pure none
  | cons a rest ih =>
    refine (htest a).bind ?_
    rintro (_ | _)
    · exact ih
    · exact leaves_pure (some a)

/-- A search whose tests leave the whole state finds what they find in that state. -/
theorem findM?_run {test : α → StateM σ Bool} (htest : ∀ a, Leaves id (test a)) (l : List α)
    (s : σ) : (l.findM? test).run s = (l.find? fun a => ((test a).run s).1, s) := by
  induction l with
  | nil => rfl
  | cons a rest ih =>
    rw [List.findM?, StateT.run_bind, (htest a).run_eq s, List.find?_cons]
    cases ((test a).run s).1 with
    | true => rfl
    | false => exact ih

end

/-! ## File systems in which a tree is seen -/

namespace Files

/-- Asking for files and reading them leaves what is seen of the state as it is. -/
structure Looks {σ τ : Type} (files : Files (StateM σ)) (view : σ → τ) : Prop where
  leaves_isFile : ∀ path, Leaves view (files.isFile path)
  leaves_read : ∀ path, Leaves view (files.read path)

/-- What can be relied on where a tree is seen in the state.  Asking and reading leave the tree as
it is; a text that is read and a write that succeeds are those of the tree; a write that is
refused leaves the tree as it is. -/
structure ActsOn {σ : Type} (files : Files (StateM σ)) (here : Place) (tree : σ → Tree) : Prop where
  leaves_isFile : ∀ path, Leaves tree (files.isFile path)
  leaves_read : ∀ path, Leaves tree (files.read path)
  read_ok : ∀ {path text s}, ((files.read path).run s).1 = .ok text →
    (tree s).read here path = .ok text
  write_ok : ∀ {path text s s'}, (files.write path text).run s = (.ok (), s') →
    (tree s).write here path text = .ok (tree s')
  write_error : ∀ {path text s s' refusal}, (files.write path text).run s = (.error refusal, s') →
    tree s' = tree s

/-- Asking and reading leave the tree that is seen. -/
theorem ActsOn.looks {σ : Type} {files : Files (StateM σ)} {here : Place} {tree : σ → Tree}
    (h : files.ActsOn here tree) : files.Looks tree :=
  ⟨h.leaves_isFile, h.leaves_read⟩

/-- Asking for files of a tree and reading them changes nothing. -/
theorem ofTree_looks (here : Place) : (ofTree here).Looks id :=
  ⟨fun _ _ => rfl, fun _ _ => rfl⟩

/-- The operations on a tree are those of the tree that is the state. -/
theorem ofTree_actsOn (here : Place) : (ofTree here).ActsOn here id where
  leaves_isFile _ _ := rfl
  leaves_read _ _ := rfl
  read_ok h := h
  write_ok h := ofTree_write_eq_ok_iff.1 h
  write_error := by
    intro path text t t' refusal h
    simp only [ofTree, StateT.run] at h
    cases hwrite : t.write here path text with
    | ok written =>
      rw [hwrite] at h
      cases (Prod.mk.inj h).1
    | error e =>
      rw [hwrite] at h
      exact (Prod.mk.inj h).2.symm

/-- The operations on the files of a disk: a tree, and how many more writes there is room for. -/
def ofDisk (here : Place) : Files (StateM (Tree × Nat)) where
  isFile p := fun disk => (disk.1.isFile here p, disk)
  read p := fun disk => (disk.1.read here p, disk)
  write p text := fun disk =>
    match disk.2, disk.1.write here p text with
    | _, .error e => (.error e, disk)
    | 0, .ok _ => (.error (.other "No space left on device (os error 28)"), disk)
    | room + 1, .ok t => (.ok (), (t, room))

/-- On a disk every write that finds no room leaves the tree as it is. -/
theorem ofDisk_actsOn (here : Place) : (ofDisk here).ActsOn here Prod.fst where
  leaves_isFile _ _ := rfl
  leaves_read _ _ := rfl
  read_ok h := h
  write_ok := by
    rintro path text ⟨t, room⟩ disk h
    simp only [ofDisk, StateT.run] at h
    cases hwrite : t.write here path text with
    | error e =>
      rw [hwrite] at h
      cases (Prod.mk.inj h).1
    | ok written =>
      rw [hwrite] at h
      cases room with
      | zero => cases (Prod.mk.inj h).1
      | succ room =>
        rw [← (Prod.mk.inj h).2]
  write_error := by
    rintro path text ⟨t, room⟩ disk refusal h
    simp only [ofDisk, StateT.run] at h
    cases hwrite : t.write here path text with
    | error e =>
      rw [hwrite] at h
      rw [← (Prod.mk.inj h).2]
    | ok written =>
      rw [hwrite] at h
      cases room with
      | zero => rw [← (Prod.mk.inj h).2]
      | succ room => cases (Prod.mk.inj h).1

end Files

end VersionStamp
