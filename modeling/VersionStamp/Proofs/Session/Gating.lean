/-
# A required version only gates

The version that is required at least is read before anything else happens and compared after
everything else has happened.  So it can end a session before it begins or withhold the report at
the end, and in between the session goes its way as if nothing were required.
-/
import VersionStamp.Proofs.Session.Course
import VersionStamp.Proofs.Session.RequiredText
import VersionStamp.Proofs.Session.Unconfigured
import VersionStamp.Proofs.Version.Release

namespace VersionStamp

namespace Session

/-! ## The end of a session -/

/-- A version is reported if the required one is packed into no larger number. -/
theorem conclude_of_le (form : Report) {required v : Version} (h : required.packed ≤ v.packed) :
    conclude form (some required) v = .ok (form.render v) := by
  have hnot : v.compareRelease required ≠ .lt := Version.compareRelease_ne_lt_iff.2 h
  exact if_neg hnot

/-- A version is too old if the required one is packed into a larger number. -/
theorem conclude_of_lt (form : Report) {required v : Version} (h : v.packed < required.packed) :
    conclude form (some required) v = .error ⟨none, .tooOld v required⟩ := by
  have hlt : v.compareRelease required = .lt := by
    rw [Version.compareRelease_eq_compare]
    exact Nat.compare_eq_lt.2 h
  exact if_pos hlt

/-- Two conclusions are printed alike, and with the same status, if the required versions are
packed into the same number. -/
theorem conclude_congr (form : Report) (log : List Log.Entry) {required₁ required₂ : Version}
    (h : required₁.packed = required₂.packed) (v : Version) :
    Outcome.exitCode ⟨log, conclude form (some required₁) v⟩ =
        Outcome.exitCode ⟨log, conclude form (some required₂) v⟩ ∧
      Outcome.output ⟨log, conclude form (some required₁) v⟩ =
        Outcome.output ⟨log, conclude form (some required₂) v⟩ := by
  -- Both required versions are on the same side of the version.
  by_cases hle : required₁.packed ≤ v.packed
  · have hle₂ : required₂.packed ≤ v.packed := by
      rw [← h]
      exact hle
    rw [conclude_of_le form hle, conclude_of_le form hle₂]
    exact ⟨rfl, rfl⟩
  · have hlt : v.packed < required₁.packed := UInt64.not_le.1 hle
    have hlt₂ : v.packed < required₂.packed := by
      rw [← h]
      exact hlt
    rw [conclude_of_lt form hlt, conclude_of_lt form hlt₂]
    exact ⟨rfl, rfl⟩

/-! ## Sessions with and without a required version -/

/-- **A required version only gates.**  A session without a required version is compared with the
same session that requires one.

A text that is no version ends the session at once, before any file is looked at.  A version leaves
the same state behind as the session without it, and the same failure if that fails; if that
reports a version, the same is reported if its packed number is large enough, and if not the
session fails and names both versions.  So required versions of one packed number make no
difference to each other. -/
theorem require_only_gates (files : Files (StateM σ)) (cwd : Path) (o : Options) (s : σ) :
    let plain := (run files cwd { o with require := none }).run s
    let guarded := fun text => (run files cwd { o with require := some text }).run s
    (∀ text fault, Version.read text = .error fault →
      (guarded text).1.report = .error ⟨none, .badVersion text fault⟩ ∧
        (guarded text).1.exitCode = 1 ∧ (guarded text).1.output = "" ∧ (guarded text).2 = s) ∧
    (∀ text required, Version.read text = .ok required →
      (guarded text).2 = plain.2 ∧
        (∀ failure, plain.1.report = .error failure →
          (guarded text).1.report = .error failure) ∧
        ∀ line, plain.1.report = .ok line →
          ∃ v, ((perform files cwd o).run s).1.2 = .ok v ∧ line = o.report.render v ∧
            (required.packed ≤ v.packed →
              (guarded text).1.exitCode = 0 ∧ (guarded text).1.output = plain.1.output) ∧
            (v.packed < required.packed →
              (guarded text).1.report = .error ⟨none, .tooOld v required⟩ ∧
                (guarded text).1.exitCode = 1 ∧ (guarded text).1.output = "" ∧
                (Fault.tooOld v required).message =
                  "version " ++ v.text ++ " is older than the required " ++ required.text)) ∧
    ∀ text₁ text₂ required₁ required₂,
      Version.read text₁ = .ok required₁ → Version.read text₂ = .ok required₂ →
        required₁.packed = required₂.packed →
          (guarded text₁).1.exitCode = (guarded text₂).1.exitCode ∧
            (guarded text₁).1.output = (guarded text₂).1.output ∧
            (guarded text₁).2 = (guarded text₂).2 := by
  intro plain guarded
  refine ⟨?_, ?_, ?_⟩
  · intro text fault hread
    have hrun : guarded text = _ := run_of_readRequired_error (readRequired_of_not_read hread)
    rw [hrun]
    exact ⟨rfl, rfl, rfl, rfl⟩
  · intro text required hread
    have hrequired := readRequired_of_read hread
    rcases hperform : (perform files cwd o).run s with ⟨⟨log, failure | v⟩, s'⟩
    · have hrun : guarded text = _ := run_of_perform_error hrequired hperform
      have hplain : plain = _ := run_of_perform_error rfl hperform
      rw [hrun, hplain]
      exact ⟨rfl, fun _ h => h, nofun⟩
    · have hrun : guarded text = _ := run_of_perform_ok hrequired hperform
      have hplain : plain = _ := run_of_perform_ok rfl hperform
      rw [hrun, hplain]
      refine ⟨rfl, nofun, ?_⟩
      intro line hline
      refine ⟨v, rfl, (Except.ok.inj hline).symm, ?_, ?_⟩
      · intro hle
        rw [conclude_of_le o.report hle]
        exact ⟨rfl, rfl⟩
      · intro hlt
        rw [conclude_of_lt o.report hlt]
        exact ⟨rfl, rfl, rfl, rfl⟩
  · intro text₁ text₂ required₁ required₂ hread₁ hread₂ hpacked
    have hrequired₁ := readRequired_of_read hread₁
    have hrequired₂ := readRequired_of_read hread₂
    rcases hperform : (perform files cwd o).run s with ⟨⟨log, failure | v⟩, s'⟩
    · have hrun₁ : guarded text₁ = _ := run_of_perform_error hrequired₁ hperform
      have hrun₂ : guarded text₂ = _ := run_of_perform_error hrequired₂ hperform
      rw [hrun₁, hrun₂]
      exact ⟨rfl, rfl, rfl⟩
    · have hrun₁ : guarded text₁ = _ := run_of_perform_ok hrequired₁ hperform
      have hrun₂ : guarded text₂ = _ := run_of_perform_ok hrequired₂ hperform
      rw [hrun₁, hrun₂]
      have hconclude := conclude_congr o.report log hpacked v
      exact ⟨hconclude.1, hconclude.2, rfl⟩

/-- A patch of the handwritten version reaches a number that is written in another way, but not
the next number, and does not begin if there is no number. -/
theorem required_of_handwritten :
    let guarded := fun text =>
      (run (Files.ofTree []) ⟨"/"⟩ { request := { patch := true }, require := some text }).run
        handwrittenTree
    Version.read " v+1.02.4-rc " = .ok ⟨1, 2, 4, "rc"⟩ ∧
      (guarded " v+1.02.4-rc ").1.exitCode = 0 ∧
      (guarded " v+1.02.4-rc ").1.output = "v1.2.4\n" ∧
      Version.read "1.2.5" = .ok ⟨1, 2, 5, ""⟩ ∧
      (guarded "1.2.5").1.report = .error ⟨none, .tooOld ⟨1, 2, 4, ""⟩ ⟨1, 2, 5, ""⟩⟩ ∧
      (guarded "1.2.5").2 = (guarded " v+1.02.4-rc ").2 ∧
      Version.read "1.2" = .error .notThreeParts ∧
      (guarded "1.2").1.output = "" ∧ (guarded "1.2").2 = handwrittenTree := by
  intro guarded
  obtain ⟨log, t, hperform⟩ := exists_perform_handwritten
  have hplain := run_of_perform_ok (rfl : readRequired none = .ok none) hperform
  have hreached : Version.read " v+1.02.4-rc " = .ok ⟨1, 2, 4, "rc"⟩ := by rfl
  have hnext : Version.read "1.2.5" = .ok ⟨1, 2, 5, ""⟩ := by rfl
  have hunsound : Version.read "1.2" = .error .notThreeParts := by rfl
  obtain ⟨hends, hgates, -⟩ := require_only_gates (Files.ofTree []) ⟨"/"⟩
    { request := { patch := true } } handwrittenTree
  obtain ⟨-, -, hunprinted, huntouched⟩ := hends _ _ hunsound
  obtain ⟨hstate, -, hreported⟩ := hgates _ _ hreached
  obtain ⟨hstate', -, hreported'⟩ := hgates _ _ hnext
  have hline := congrArg (fun outcome => outcome.1.report) hplain
  obtain ⟨v, hv, -, hle, -⟩ := hreported _ hline
  obtain ⟨w, hw, -, -, hlt⟩ := hreported' _ hline
  rw [hperform] at hv hw
  cases hv
  cases hw
  obtain ⟨hcode, houtput⟩ := hle (by decide)
  obtain ⟨hold, -⟩ := hlt (by decide)
  refine ⟨hreached, hcode, ?_, hnext, hold, hstate'.trans hstate.symm, hunsound, hunprinted,
    huntouched⟩
  rw [houtput, hplain]
  rfl

end Session

end VersionStamp
