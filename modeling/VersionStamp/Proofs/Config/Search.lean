/-
# The search for a project

The root of a project is searched for among the ancestors of a directory, and its configuration is
read there.  All of this only asks for files and reads them.  So where asking and reading change
nothing, what is found depends on the state alone, and it is found again when the search starts
from there.
-/
import VersionStamp.Config
import VersionStamp.Proofs.Config.Resolution
import VersionStamp.Proofs.Files.Frame
import VersionStamp.Proofs.Path.Ancestors

namespace VersionStamp

namespace Config

variable {σ τ : Type} {files : Files (StateM σ)} {view : σ → τ} {s : σ} {start root : Path}

/-! ## What a search leaves -/

section

variable (hfiles : files.Looks view)
include hfiles

/-- Nothing is written to load a section. -/
theorem leaves_loadSection (path : Path) : Leaves view (loadSection files path) := by
  refine (hfiles.leaves_isFile path).bind ?_
  rintro (_ | _)
  · exact leaves_pure _
  · refine (hfiles.leaves_read path).bind ?_
    rintro (_ | _)
    · exact leaves_pure _
    · exact leaves_pure _

/-- Nothing is written to tell whether a directory is a root. -/
theorem leaves_isRoot (dir : Path) : Leaves view (isRoot files dir) := by
  refine (hfiles.leaves_isFile (dir.join fileName)).bind ?_
  rintro (_ | _)
  · exact hfiles.leaves_isFile (dir.join standardFile)
  · exact leaves_pure true

/-- Nothing is written to find the root of a project. -/
theorem leaves_rootOr (start : Path) : Leaves view (rootOr files start) :=
  (leaves_findM? (leaves_isRoot hfiles) start.ancestors).bind fun _ => leaves_pure _

/-- Nothing is written to resolve a store. -/
theorem leaves_resolve (cwd : Path) (given : Option Path) :
    Leaves view (resolve files cwd given) := by
  refine (leaves_rootOr hfiles cwd).bind ?_
  intro root
  refine (leaves_loadSection hfiles (root.join fileName)).bind ?_
  rintro (_ | _)
  · exact leaves_pure _
  · exact leaves_pure _

end

/-! ## What a search finds -/

section

variable (hlooks : files.Looks id)
include hlooks

/-- The root that is found is the nearest of the ancestors that is one. -/
theorem findRoot?_run (start : Path) (s : σ) :
    (findRoot? files start).run s =
      (start.ancestors.find? fun dir => ((isRoot files dir).run s).1, s) :=
  findM?_run (leaves_isRoot hlooks) start.ancestors s

/-- A root that is found is an ancestor, and it is found again from there. -/
theorem rootOr_run_of_found (h : ((findRoot? files start).run s).1 = some root) :
    root ∈ start.ancestors ∧ (rootOr files start).run s = (root, s) ∧
      (rootOr files root).run s = (root, s) := by
  have hrun := findRoot?_run hlooks start s
  have hfound : start.ancestors.find? (fun dir => ((isRoot files dir).run s).1) = some root := by
    rw [hrun] at h
    exact h
  have hroot : (isRoot files root).run s = (true, s) := by
    rw [(leaves_isRoot hlooks root).run_eq s, List.find?_some hfound]
  refine ⟨List.mem_of_find?_eq_some hfound, ?_, rootOr_run_of_isRoot hroot⟩
  rw [rootOr, StateT.run_bind, hrun, hfound]
  rfl

/-- The store is made from what the configuration file in the root says. -/
theorem resolve_run_of_root (hroot : (rootOr files start).run s = (root, s))
    (given : Option Path) :
    (resolve files start given).run s =
      (((loadSection files (root.join fileName)).run s).1.map fun config =>
        ⟨config.usedFile start root given, config.usedStem⟩, s) := by
  rw [resolve_run, hroot]
  dsimp only
  rw [(leaves_loadSection hlooks (root.join fileName)).run_eq s]

end

end Config

end VersionStamp
