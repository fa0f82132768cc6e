/-
# What a run of the program leaves as it is

A run of the program with a sound command line is a session, so its files are framed as those of
the session are, and its status and its output are those of the session.
-/
import VersionStamp.Program
import VersionStamp.Proofs.Session.Frame
import VersionStamp.Proofs.Session.Unconfigured

namespace VersionStamp

namespace Program

variable {σ : Type} {files : Files (StateM σ)} {here : Place} {tree : σ → Tree} {o : Options}
  {fileValue : Option String} {arguments : List String}

/-- A sound command line starts a session. -/
theorem run_of_parse (hparse : Command.parse fileValue arguments = .run o) (cwd : Path)
    (style : Log.Style) (s : σ) :
    (run files cwd style fileValue arguments).run s =
      let session := (Session.run files cwd o).run s
      (.ofOutcome style session.1, session.2) := by
  rw [run, hparse]
  rfl

/-- **A run of the program writes to the version file only, and there only whole versions.**  Let
the file system carry out a write or leave all files as they are.  Then a run with a sound command
line makes no file and removes none, and changes none but the version file that is resolved.  A
request that changes nothing leaves all files as they are.  A run that fails prints nothing, and
leaves all files as they are unless the new version is too old or a write is refused behind a step
that was stored.  A version file that is written holds the header of the version after the last
stored step, and that is the version that is printed on success. -/
theorem run_framed (hfiles : files.ActsOn here tree)
    (hparse : Command.parse fileValue arguments = .run o) (cwd : Path) (style : Log.Style) (s : σ) :
    ∃ outcome s', (run files cwd style fileValue arguments).run s =
        (.ofOutcome style outcome, s') ∧
      Session.Framed here o ((Config.resolve files cwd o.file).run s).1
        (Session.storedSteps files cwd o s) outcome (tree s) (tree s') :=
  ⟨_, _, run_of_parse hparse cwd style s, Session.framed_run hfiles cwd o s⟩

open Session (handwritten handwrittenTree parse_handwritten standardStore)

/-- On a disk with room for one write, of two steps only the first one is stored. -/
theorem storedSteps_on_full_disk :
    let files := Files.ofDisk []
    let o : Options := { request := { major := true, patch := true } }
    (Config.resolve files ⟨"/"⟩ o.file).run (handwrittenTree, 1) =
        (.ok standardStore, (handwrittenTree, 1)) ∧
      Session.storedSteps files ⟨"/"⟩ o (handwrittenTree, 1) = [.major] := by
  intro files o
  have hresolve : (Config.resolve files ⟨"/"⟩ o.file).run (handwrittenTree, 1) =
      (.ok standardStore, (handwrittenTree, 1)) :=
    Config.resolve_run_of_unconfigured rfl rfl
  have hload : (standardStore.load files).run (handwrittenTree, 1) =
      (.ok ⟨1, 2, 3, "rc1"⟩, (handwrittenTree, 1)) := by rfl
  have haccepted : Bump.acceptedSteps (standardStore.persist files) [.major, .patch]
      ⟨1, 2, 3, "rc1"⟩ (handwrittenTree, 1) = [.major] := by
    decide +kernel
  exact ⟨hresolve, (Session.performedSteps_of_loaded hresolve hload).trans haccepted⟩

/-- The major version is stored before the disk is full, and the file holds it although the run
fails. -/
theorem run_framed_on_full_disk :
    let arguments := ["--major", "--patch"]
    Command.parse none arguments = .run { request := { major := true, patch := true } } ∧
      (Files.ofDisk []).ActsOn [] Prod.fst ∧
      ∃ outcome disk, (run (Files.ofDisk []) ⟨"/"⟩ .plain none arguments).run (handwrittenTree, 1) =
          (.ofOutcome .plain outcome, disk) ∧
        outcome.exitCode = 1 ∧ outcome.output = "" ∧
        disk.1 = handwrittenTree.set ["src", "version.inc"]
          (.file (Header.render "LC0" ⟨2, 0, 0, ""⟩).toUTF8) := by
  intro arguments
  have hparse : Command.parse none arguments =
      .run { request := { major := true, patch := true } } := by rfl
  have hfiles := Files.ofDisk_actsOn []
  obtain ⟨hresolve, hstored⟩ := storedSteps_on_full_disk
  obtain ⟨outcome, disk, hrun, hframed⟩ :=
    run_framed hfiles hparse ⟨"/"⟩ .plain (handwrittenTree, 1)
  rw [hresolve, hstored] at hframed
  obtain ⟨store, v, hstore, -, ⟨place, text, hlocate, hfile, hheader, hafter⟩, hsuccess⟩ :=
    hframed.written (List.cons_ne_nil _ _)
  -- The version file is the one of the tree, and holds the handwritten version.
  obtain rfl : standardStore = store := Except.ok.inj hstore
  have hplace : handwrittenTree.locate [] standardStore.path = .ok ["src", "version.inc"] := by
    rfl
  obtain rfl : ["src", "version.inc"] = place := Except.ok.inj (hplace.symm.trans hlocate)
  have hnode : handwrittenTree.at? ["src", "version.inc"] = some (.file handwritten.toUTF8) := rfl
  have hbytes := Node.file.inj (Option.some.inj (hnode.symm.trans hfile))
  obtain rfl : handwritten = text := String.toByteArray_inj.1 hbytes
  obtain rfl : ⟨1, 2, 3, "rc1"⟩ = v := Except.ok.inj (parse_handwritten.symm.trans hheader)
  -- The run has not taken all of its steps, so it has failed.
  have hcode : outcome.exitCode = 1 := by
    cases hreport : outcome.report with
    | error failure => simp only [Session.Outcome.exitCode, hreport]
    | ok line =>
      have hzero : outcome.exitCode = 0 := by simp only [Session.Outcome.exitCode, hreport]
      exact absurd (hsuccess hzero).1 (by decide)
  exact ⟨hparse, hfiles, outcome, disk, hrun, hcode, (hframed.failed hcode).1, hafter⟩

end Program

end VersionStamp
