/-
# Trees keep what is written

A write to a tree touches one place, which is no directory, so the way to every place stays as
it was.  The main facts:

* `read_of_write` : what was written is read back;
* `Files.ofTree_readsBack`, `Files.ofTree_keeps` : trees obey the laws of a file system.
-/
import VersionStamp.Tree
import VersionStamp.Proofs.Files.Laws

namespace VersionStamp

namespace Tree

variable {t : Tree} {cwd place : Place} {p : Path}

/-! ## Following a path after a write -/

/-- A way through directories does not pass a place that is no directory. -/
theorem walk_set (hplace : t.at? place ≠ some .dir) (node : Node) {here there : Place}
    {pieces : List String} (h : t.walk here pieces = .ok there) :
    (t.set place node).walk here pieces = .ok there := by
  induction pieces generalizing here with
  | nil => exact h
  | cons piece rest ih =>
    rw [walk] at h ⊢
    split
    next hstay =>
      rw [if_pos hstay] at h
      exact ih h
    next hstay =>
      rw [if_neg hstay] at h
      split
      next hup =>
        rw [if_pos hup] at h
        exact ih h
      next hup =>
        rw [if_neg hup] at h
        cases hnode : t.at? (here ++ [piece]) with
        | none => simp [hnode] at h
        | some found =>
          cases found with
          | file bytes => simp [hnode] at h
          | dir =>
            have hne : here ++ [piece] ≠ place := fun heq => hplace (heq ▸ hnode)
            rw [hnode] at h
            rw [at?_set_of_ne t node hne, hnode]
            exact ih h

/-- A path leads to the same place after a write to a place that is no directory. -/
theorem locate_set (hplace : t.at? place ≠ some .dir) (node : Node) {found : Place}
    (h : t.locate cwd p = .ok found) : (t.set place node).locate cwd p = .ok found := by
  unfold locate at h ⊢
  split
  next hnul => simp [hnul] at h
  next hnul =>
    rw [if_neg hnul] at h
    split
    next hempty => simp [hempty] at h
    next hempty =>
      rw [if_neg hempty] at h
      dsimp only at h ⊢
      split
      next hturn =>
        rw [if_pos hturn] at h
        exact walk_set hplace node h
      next hturn =>
        rw [if_neg hturn] at h
        -- The last piece is a name, which need not be there: only the way to it is walked.
        cases hwalk : t.walk (if p.isAbsolute then [] else cwd) (pieces p).dropLast with
        | error e => simp [hwalk, Except.map] at h
        | ok dir =>
          rw [hwalk] at h
          rw [walk_set hplace node hwalk]
          exact h

/-- A path that does not end in a slash has no slashes to leave out. -/
theorem withoutSlashes_eq_self (h : p.text.toList.getLast? ≠ some '/') :
    withoutSlashes p = p := by
  have hkeep : p.text.toList.reverse.dropWhile (· = '/') = p.text.toList.reverse := by
    rw [List.getLast?_eq_head?_reverse] at h
    cases hrev : p.text.toList.reverse with
    | nil => rfl
    | cons c rest =>
      have hc : c ≠ '/' := by simpa [hrev] using h
      simp [hc]
  simp only [withoutSlashes, hkeep, List.reverse_reverse, String.ofList_toList, ite_self]

/-! ## Reading after a write -/

/-- A text is found again in its bytes. -/
theorem text_of_toUTF8 (text : String) : String.fromUTF8? text.toUTF8 = some text :=
  dif_pos text.isValidUTF8

/-- The file at a path holds a text, and the path does not ask for a directory. -/
def Holds (t : Tree) (cwd : Place) (p : Path) (text : String) : Prop :=
  p.text.toList.getLast? ≠ some '/' ∧
    ∃ place, t.locate cwd p = .ok place ∧ t.at? place = some (.file text.toUTF8)

/-- A file is read as the text that it holds. -/
theorem read_of_holds {text : String} (h : t.Holds cwd p text) : t.read cwd p = .ok text := by
  obtain ⟨-, place, hlocate, hnode⟩ := h
  simp only [read, hlocate, hnode, text_of_toUTF8]

/-- After a write the file at the path holds what was written. -/
theorem holds_of_write {t' : Tree} {text : String} (h : t.write cwd p text = .ok t') :
    t'.Holds cwd p text := by
  unfold write at h
  cases hlocate : t.locate cwd (withoutSlashes p) with
  | error e => simp [hlocate] at h
  | ok place =>
    simp only [hlocate] at h
    split at h
    · cases h
    next hslash =>
      -- The root is a directory too, so it is no place to write to.
      have hplace : t.at? place ≠ some .dir := by
        intro hdir
        simp [hdir] at h
      have hne : place ≠ [] := by
        rintro rfl
        exact hplace rfl
      have hset : t' = t.set place (.file text.toUTF8) := by
        split at h
        · cases h
        · exact (Except.ok.inj h).symm
      rw [withoutSlashes_eq_self hslash] at hlocate
      subst hset
      exact ⟨hslash, place, locate_set hplace _ hlocate, at?_set_self t _ hne⟩

/-- A file that holds a text can be written. -/
theorem exists_write_of_holds {old : String} (h : t.Holds cwd p old) (text : String) :
    ∃ t', t.write cwd p text = .ok t' := by
  obtain ⟨hslash, place, hlocate, hnode⟩ := h
  refine ⟨t.set place (.file text.toUTF8), ?_⟩
  simp only [write, withoutSlashes_eq_self hslash, hlocate, hslash, hnode, ↓reduceIte]

end Tree

/-! ## The laws of a file system -/

namespace Files

/-- A write is carried out on the tree that is the state. -/
theorem ofTree_write_eq_ok_iff {cwd : Place} {path : Path} {text : String} {t t' : Tree} :
    ((ofTree cwd).write path text).run t = (.ok (), t') ↔ t.write cwd path text = .ok t' := by
  simp only [ofTree, StateT.run]
  cases t.write cwd path text with
  | ok t'' =>
    constructor
    · intro h
      exact congrArg Except.ok (Prod.mk.inj h).2
    · intro h
      exact Prod.ext rfl (Except.ok.inj h)
  | error e =>
    constructor
    · intro h
      cases (Prod.mk.inj h).1
    · intro h
      cases h

/-- What is written to a tree is read back. -/
theorem ofTree_readsBack (cwd : Place) : (ofTree cwd).ReadsBack := by
  intro path text t t' h
  exact Tree.read_of_holds (Tree.holds_of_write (ofTree_write_eq_ok_iff.1 h))

/-- A text that is held in a tree is read, and the tree stays as it is. -/
theorem ofTree_read_run {cwd : Place} {path : Path} {text : String} {t : Tree}
    (h : t.Holds cwd path text) : ((ofTree cwd).read path).run t = (.ok text, t) :=
  Prod.ext (Tree.read_of_holds h) rfl

/-- A file of a tree is there to stay. -/
theorem ofTree_keeps (cwd : Place) (path : Path) :
    (ofTree cwd).Keeps path fun t text => t.Holds cwd path text where
  read_holds := by
    intro t text h
    exact ⟨t, ofTree_read_run h, h⟩
  write_holds := by
    intro t old text h
    obtain ⟨t', hwrite⟩ := Tree.exists_write_of_holds h text
    exact ⟨t', ofTree_write_eq_ok_iff.2 hwrite, Tree.holds_of_write hwrite⟩

end Files

end VersionStamp
