/-
# Files at absolute paths

An absolute path leads to the same place from every working directory.  So the operations on the
files of a tree are the same from everywhere at absolute paths.
-/
import VersionStamp.Proofs.Files.Frame
import VersionStamp.Proofs.Path.Ancestors

namespace VersionStamp

namespace Tree

variable {p : Path}

/-- An absolute path leads to the same place from every working directory. -/
theorem locate_of_isAbsolute (hp : p.isAbsolute = true) (t : Tree) (here here' : Place) :
    t.locate here p = t.locate here' p := by
  simp only [locate, if_pos hp]

/-- An absolute path stays absolute without the slashes at its end. -/
theorem isAbsolute_withoutSlashes (hp : p.isAbsolute = true) :
    (withoutSlashes p).isAbsolute = true := by
  unfold withoutSlashes
  dsimp only
  split
  · exact hp
  next hne =>
    obtain ⟨rest, hrest⟩ := Path.isAbsolute_iff.1 hp
    -- What is kept is the front part of the path, and it is not empty.
    have hprefix : (p.text.toList.reverse.dropWhile (· = '/')).reverse <+: p.text.toList := by
      have hsuffix := List.dropWhile_suffix (l := p.text.toList.reverse) (fun c => decide (c = '/'))
      simpa using List.reverse_prefix.2 hsuffix
    cases hkept : (p.text.toList.reverse.dropWhile (· = '/')).reverse with
    | nil => exact absurd hkept hne
    | cons c more =>
      rw [hkept, hrest, List.cons_prefix_cons] at hprefix
      exact Path.isAbsolute_iff.2 ⟨more, by rw [String.toList_ofList, hprefix.1]⟩

/-- Whether there is a file at an absolute path is the same from everywhere. -/
theorem isFile_of_isAbsolute (hp : p.isAbsolute = true) (t : Tree) (here here' : Place) :
    t.isFile here p = t.isFile here' p := by
  rw [isFile, isFile, locate_of_isAbsolute hp t here here']

/-- What is read at an absolute path is the same from everywhere. -/
theorem read_of_isAbsolute (hp : p.isAbsolute = true) (t : Tree) (here here' : Place) :
    t.read here p = t.read here' p := by
  rw [read, read, locate_of_isAbsolute hp t here here']

/-- What is written at an absolute path is the same from everywhere. -/
theorem write_of_isAbsolute (hp : p.isAbsolute = true) (t : Tree) (here here' : Place)
    (text : String) : t.write here p text = t.write here' p text := by
  rw [write, write, locate_of_isAbsolute (isAbsolute_withoutSlashes hp) t here here']

end Tree

namespace Files

/-- The operations are the same at every absolute path. -/
structure AgreeOnAbsolute {m : Type → Type} (files files' : Files m) : Prop where
  isFile_eq : ∀ {path : Path}, path.isAbsolute = true → files.isFile path = files'.isFile path
  read_eq : ∀ {path : Path}, path.isAbsolute = true → files.read path = files'.read path
  write_eq : ∀ {path : Path}, path.isAbsolute = true → files.write path = files'.write path

/-- The operations on the files of a tree are the same from everywhere at absolute paths. -/
theorem ofTree_agreeOnAbsolute (here here' : Place) :
    (ofTree here).AgreeOnAbsolute (ofTree here') where
  isFile_eq := by
    intro path hpath
    funext t
    simp only [ofTree, Tree.isFile_of_isAbsolute hpath t here here']
  read_eq := by
    intro path hpath
    funext t
    simp only [ofTree, Tree.read_of_isAbsolute hpath t here here']
  write_eq := by
    intro path hpath
    funext text t
    simp only [ofTree, Tree.write_of_isAbsolute hpath t here here']

end Files

end VersionStamp
