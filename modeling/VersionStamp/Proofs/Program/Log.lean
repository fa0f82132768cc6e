/-
# The log of a run does not interfere

What is logged, and how it is dressed, makes no difference to what a run does: neither the flag for
details nor the style changes the status, the output or the files.  The flag decides which entries
are written, and the style decides what stands in front of their messages.
-/
import VersionStamp.Proofs.Command.Reading
import VersionStamp.Proofs.Log.Dress
import VersionStamp.Proofs.Program.Frame
import VersionStamp.Proofs.Session.Quiet
import VersionStamp.Proofs.Session.Unconfigured

namespace VersionStamp

namespace Program

variable {σ : Type} {files : Files (StateM σ)} {cwd : Path} {s : σ} {o : Options}
  {style : Log.Style} {fileValue : Option String} {arguments : List String}

/-- A quiet session in a state is the verbose one there, with the details taken out of its log. -/
theorem session_run_quiet (files : Files (StateM σ)) (cwd : Path) (o : Options) (s : σ) :
    let verbose := (Session.run files cwd { o with verbose := true }).run s
    (Session.run files cwd { o with verbose := false }).run s = (verbose.1.quiet, verbose.2) := by
  intro verbose
  rw [Session.run_quiet, StateT.run_map]
  rfl

/-- A run that starts no session does not depend on the style. -/
theorem run_eq_of_no_session (h : ∀ o, Command.parse fileValue arguments ≠ .run o) :
    run files cwd style fileValue arguments = run files cwd .plain fileValue arguments := by
  rw [run, run]
  cases hparse : Command.parse fileValue arguments with
  | run o => exact absurd hparse (h o)
  | _ => rfl

/-- **Logging does not interfere.**  A session with details and one without end with the same
status, print the same and leave the same files, and the entries of the quiet one are those of the
verbose one without those for information and for debugging, in the same order.  So it is with two
command lines of which one has the flag for details in front.

Runs in two styles end with the same status, print the same and leave the same files.  Their logs
have the same entries, each with the same message and trace, and what stands in front of it is the
plain signature and label in every style, but for control sequences. -/
theorem logging_does_not_interfere (files : Files (StateM σ)) (cwd : Path) (s : σ) :
    (∀ o : Options,
      let quiet := (Session.run files cwd { o with verbose := false }).run s
      let verbose := (Session.run files cwd { o with verbose := true }).run s
      quiet.1.exitCode = verbose.1.exitCode ∧ quiet.1.output = verbose.1.output ∧
        quiet.2 = verbose.2 ∧
        quiet.1.entries = verbose.1.entries.filter fun entry =>
          entry.level ≠ .info ∧ entry.level ≠ .debug) ∧
    (∀ style fileValue arguments (o : Options), Command.parse fileValue arguments = .run o →
      o.verbose = false →
        let quiet := (run files cwd style fileValue arguments).run s
        let verbose := (run files cwd style fileValue ("--verbose" :: arguments)).run s
        let log := ((Session.run files cwd { o with verbose := true }).run s).1.entries
        quiet.1.status = verbose.1.status ∧ quiet.1.output = verbose.1.output ∧
          quiet.2 = verbose.2 ∧ verbose.1.errors = style.render log ∧
          quiet.1.errors = style.render (log.filter fun entry =>
            entry.level ≠ .info ∧ entry.level ≠ .debug)) ∧
    (∀ style fileValue arguments,
      let dressed := (run files cwd style fileValue arguments).run s
      let plain := (run files cwd .plain fileValue arguments).run s
      dressed.1.status = plain.1.status ∧ dressed.1.output = plain.1.output ∧
        dressed.2 = plain.2 ∧
        ((∀ o, Command.parse fileValue arguments ≠ .run o) → dressed.1.errors = plain.1.errors) ∧
        ∀ o, Command.parse fileValue arguments = .run o →
          let log := ((Session.run files cwd o).run s).1.entries
          dressed.1.errors =
              String.join (log.map fun entry => style.front entry.level ++ entry.body) ∧
            plain.1.errors = String.join (log.map fun entry =>
              "[versionbump] [" ++ entry.level.label ++ "] " ++ entry.body)) ∧
    ∀ (style : Log.Style) level,
      Log.undressed (style.front level) = "[versionbump] [" ++ level.label ++ "] " := by
  refine ⟨?_, ?_, ?_, ?_⟩
  · intro o quiet verbose
    have hquiet : quiet = (verbose.1.quiet, verbose.2) := session_run_quiet files cwd o s
    rw [hquiet]
    exact ⟨rfl, rfl, rfl, verbose.1.entries_quiet⟩
  · intro style fileValue arguments o hparse ho quiet verbose log
    have ho' : { o with verbose := false } = o := by rw [← ho]
    have hverbose : verbose = _ := run_of_parse (Command.parse_verbose_cons hparse ho) cwd style s
    have hquiet : quiet = _ := run_of_parse hparse cwd style s
    rw [← ho', session_run_quiet] at hquiet
    rw [hquiet, hverbose]
    exact ⟨rfl, rfl, rfl, rfl, congrArg style.render (Session.Outcome.entries_quiet _)⟩
  · intro style fileValue arguments dressed plain
    by_cases hsession : ∃ o, Command.parse fileValue arguments = .run o
    · obtain ⟨o, hparse⟩ := hsession
      have hdressed : dressed = _ := run_of_parse hparse cwd style s
      have hplain : plain = _ := run_of_parse hparse cwd .plain s
      rw [hdressed, hplain]
      refine ⟨rfl, rfl, rfl, fun hno => absurd hparse (hno o), ?_⟩
      intro o' hparse' log
      obtain rfl : o = o' := Command.run.inj (hparse.symm.trans hparse')
      exact ⟨rfl, Log.render_plain log⟩
    · have hno : ∀ o, Command.parse fileValue arguments ≠ .run o := not_exists.1 hsession
      have hsame : dressed = plain :=
        congrArg (fun program => program.run s) (run_eq_of_no_session hno)
      rw [hsame]
      exact ⟨rfl, rfl, rfl, fun _ => rfl, fun o hparse => absurd hparse (hno o)⟩
  · intro style level
    rw [Log.undressed_front, Log.plain_front]

open Session (handwrittenTree)

/-- To raise the patch, with details. -/
def verbosePatch : Options := { request := { patch := true }, verbose := true }

/-- The entries of a verbose session that patches the handwritten version. -/
theorem entries_of_verbosePatch :
    ((Session.run (Files.ofTree []) ⟨"/"⟩ verbosePatch).run handwrittenTree).1.entries =
      [Session.located Session.standardStore, Bump.stored .patch ⟨1, 2, 4, ""⟩,
        Session.bumped ⟨1, 2, 3, "rc1"⟩ ⟨1, 2, 4, ""⟩ 1] := by
  have hperform := Session.perform_unconfigured Session.parse_handwritten
    (rfl : verbosePatch.file = none)
  have hrun := Session.run_of_perform_ok (rfl : Session.readRequired none = .ok none) hperform
  exact congrArg (fun session => session.1.entries) hrun

/-- Of three entries of a verbose run, two are details. -/
theorem log_of_patch :
    let quiet := (run (Files.ofTree []) ⟨"/"⟩ .plain none ["--patch"]).run handwrittenTree
    let verbose :=
      (run (Files.ofTree []) ⟨"/"⟩ .plain none ["--verbose", "--patch"]).run handwrittenTree
    Command.parse none ["--patch"] = .run { request := { patch := true } } ∧
      quiet.1.status = verbose.1.status ∧ quiet.1.output = verbose.1.output ∧
      quiet.2 = verbose.2 ∧
      verbose.1.errors =
        "[versionbump] [INFO] Using version file /src/version.inc\n" ++
          "[versionbump] [DEBUG] patch step written: v1.2.4\n" ++
          "[versionbump] [SUCCESS] v1.2.3-rc1 -> v1.2.4 (1 write(s))\n" ∧
      quiet.1.errors = "[versionbump] [SUCCESS] v1.2.3-rc1 -> v1.2.4 (1 write(s))\n" := by
  intro quiet verbose
  have hparse : Command.parse none ["--patch"] = .run { request := { patch := true } } := by rfl
  obtain ⟨hstatus, houtput, hstate, hverbose, hquiet⟩ :=
    (logging_does_not_interfere (Files.ofTree []) ⟨"/"⟩ handwrittenTree).2.1 .plain none ["--patch"]
      { request := { patch := true } } hparse rfl
  have hlog := entries_of_verbosePatch
  rw [verbosePatch] at hlog
  rw [hlog] at hverbose hquiet
  exact ⟨hparse, hstatus, houtput, hstate, hverbose, hquiet⟩

end Program

end VersionStamp
