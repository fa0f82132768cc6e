/-
# A tag that was reported can be required

The tag of a version that was read is read back as the same version.  So a tag that a session has
reported can be required of the next one, and if nothing is changed it is reported again.
-/
import VersionStamp.Proofs.Session.Gating
import VersionStamp.Proofs.Session.Unconfigured
import VersionStamp.Proofs.Store.Access
import VersionStamp.Proofs.Version.RoundTrip

namespace VersionStamp

namespace Session

variable {σ : Type} {files : Files (StateM σ)} {cwd : Path} {o : Options} {store : Store}
  {v : Version} {s s₁ s₂ : σ}

/-- A request that changes nothing ends with the version that is loaded. -/
theorem exists_perform_of_loaded (hr : o.request.isMutating = false)
    (hresolve : (Config.resolve files cwd o.file).run s = (.ok store, s₁))
    (hload : (store.load files).run s₁ = (.ok v, s₂)) :
    ∃ log, (perform files cwd o).run s = ((log, .ok v), s₂) := by
  have hsteps := Bump.steps_eq_nil_iff.2 hr
  have haccepts : Bump.Sink.Accepts (store.persist files) (Bump.versions o.request.steps v) s₂ := by
    rw [hsteps]
    exact trivial
  rw [perform_run_of_resolved hresolve, update_run_of_loaded hload,
    bump_run_of_accepts o.verbose haccepts, hsteps]
  exact ⟨_, rfl⟩

/-- If a request that changes nothing ends with a version, this was loaded. -/
theorem exists_loaded_of_perform {log : List Log.Entry} (hr : o.request.isMutating = false)
    (h : (perform files cwd o).run s = ((log, .ok v), s₂)) :
    ∃ store s₁, (Config.resolve files cwd o.file).run s = (.ok store, s₁) ∧
      (store.load files).run s₁ = (.ok v, s₂) := by
  rcases hresolve : (Config.resolve files cwd o.file).run s with ⟨fault | store, s₁⟩
  · rw [perform_run_of_unresolved hresolve] at h
    cases h
  · rcases hload : (store.load files).run s₁ with ⟨fault | w, s'⟩
    · rw [perform_run_of_resolved hresolve, update_run_of_unloaded hload] at h
      cases h
    · obtain ⟨log', hperform⟩ := exists_perform_of_loaded hr hresolve hload
      obtain ⟨hcourse, rfl⟩ := Prod.mk.inj (hperform.symm.trans h)
      obtain rfl : w = v := Except.ok.inj (Prod.mk.inj hcourse).2
      exact ⟨store, s₁, rfl, hload⟩

/-- Where a session that changes nothing has reported a tag, any other session that changes nothing
reports it again when it is required. -/
theorem run_require_reported_tag {o' : Options} {t : String} (hfile : o'.file = o.file)
    (hr : o.request.isMutating = false) (hr' : o'.request.isMutating = false)
    (h : ((run files cwd { o with report := .tag, require := none }).run s).1.report = .ok t) :
    ∃ log log' s',
      (run files cwd { o with report := .tag, require := none }).run s = (⟨log, .ok t⟩, s') ∧
        (run files cwd { o' with report := .tag, require := some t }).run s =
          (⟨log', .ok t⟩, s') := by
  have hnone : readRequired none = .ok none := rfl
  rcases hperform : (perform files cwd { o with report := .tag }).run s with
    ⟨⟨log, failure | v⟩, s'⟩
  · rw [run_of_perform_error hnone hperform] at h
    cases h
  · have hplain := run_of_perform_ok hnone hperform
    rw [hplain] at h
    obtain rfl : v.tag = t := Except.ok.inj h
    obtain ⟨store, s₁, hresolve, hload⟩ := exists_loaded_of_perform hr hperform
    rw [← hfile] at hresolve
    -- The other session loads the same version, and this is read back from its tag.
    obtain ⟨log', hperform'⟩ :=
      exists_perform_of_loaded (o := { o' with report := .tag }) hr' hresolve hload
    obtain ⟨text, -, hparse⟩ := Store.exists_parse_of_load hload
    have hread := Version.read_tag (Version.not_endsBlank_of_parse hparse)
    have hagain := run_of_perform_ok (readRequired_of_read hread) hperform'
    rw [conclude_of_le .tag UInt64.le_rfl] at hagain
    exact ⟨log, log', s', hplain, hagain⟩

/-- **Versions that are written are read back.**  A version is read back from its text and from its
tag, with any blanks around them, if and only if its suffix does not end in a blank.  No version
that was read, from a text or from a version file, has such a suffix; so what is read and written
is read again as the same version, and among these versions each has a tag of its own.  Where a
session that changes nothing has reported a tag, every session that changes nothing succeeds when
this tag is required, reports it again, and leaves the same state behind. -/
theorem written_versions_are_read_back :
    (∀ front back : String, (∀ c ∈ front.toList, Text.isBlank c = true) →
      (∀ c ∈ back.toList, Text.isBlank c = true) → ∀ v : Version,
        (Version.read (front ++ v.text ++ back) = .ok v ↔ ¬v.EndsBlank) ∧
          (Version.read (front ++ v.tag ++ back) = .ok v ↔ ¬v.EndsBlank)) ∧
      (∀ s v, Version.read s = .ok v → ¬v.EndsBlank ∧ Version.read v.text = .ok v) ∧
      (∀ text v, Header.parse text = .ok v → ¬v.EndsBlank) ∧
      (∀ v w : Version, ¬v.EndsBlank → ¬w.EndsBlank → v.tag = w.tag → v = w) ∧
      ∀ {σ : Type} (files : Files (StateM σ)) (cwd : Path) (o o' : Options) (s : σ) (t : String),
        o'.file = o.file → o.request.isMutating = false → o'.request.isMutating = false →
        let plain := (run files cwd { o with report := .tag, require := none }).run s
        let guarded := (run files cwd { o' with report := .tag, require := some t }).run s
        plain.1.report = .ok t →
          guarded.1.exitCode = 0 ∧ guarded.1.output = t ++ "\n" ∧ guarded.2 = plain.2 := by
  refine ⟨?_, ?_, fun text v => Version.not_endsBlank_of_parse, ?_, ?_⟩
  · intro front back hfront hback v
    exact ⟨Version.read_text_iff hfront hback v, Version.read_tag_iff hfront hback v⟩
  · intro s v hread
    have hclean := Version.not_endsBlank_of_read hread
    exact ⟨hclean, Version.read_text hclean⟩
  · intro v w hv hw htag
    have hread := Version.read_tag hv
    rw [htag, Version.read_tag hw] at hread
    exact (Except.ok.inj hread).symm
  · intro σ files cwd o o' s t hfile hr hr' plain guarded hreport
    obtain ⟨log, log', s', hplain, hguarded⟩ := run_require_reported_tag hfile hr hr' hreport
    have hplain : plain = _ := hplain
    have hguarded : guarded = _ := hguarded
    rw [hplain, hguarded]
    exact ⟨rfl, rfl, rfl⟩

/-- A suffix may hold blanks but not end in one, and the tag of the handwritten version can be
required of a session that sets an empty suffix. -/
theorem handwritten_tag_is_reported_again :
    let guarded := (run (Files.ofTree []) ⟨"/"⟩
      { request := { suffix := some "" }, require := some "v1.2.3-rc1" }).run handwrittenTree
    Version.read "\u00a0v1.2.3-- v.1\n" = .ok ⟨1, 2, 3, "- v.1"⟩ ∧
      Version.read "1.2.3-rc\u3000" ≠ .ok ⟨1, 2, 3, "rc\u3000"⟩ ∧
      guarded.1.exitCode = 0 ∧ guarded.1.output = "v1.2.3-rc1\n" ∧ guarded.2 = handwrittenTree := by
  intro guarded
  obtain ⟨hread, -, -, -, hrun⟩ := written_versions_are_read_back
  have hclean : ¬Version.EndsBlank ⟨1, 2, 3, "- v.1"⟩ := by
    rintro ⟨c, hc, hblank⟩
    obtain rfl : '1' = c := Option.some.inj hc
    cases hblank
  have hblank : Version.EndsBlank ⟨1, 2, 3, "rc\u3000"⟩ := ⟨'\u3000', rfl, rfl⟩
  have hfront : ∀ c ∈ "\u00a0".toList, Text.isBlank c = true := List.forall_mem_singleton.2 rfl
  have hback : ∀ c ∈ "\n".toList, Text.isBlank c = true := List.forall_mem_singleton.2 rfl
  have hinner := (hread "\u00a0" "\n" hfront hback _).2.2 hclean
  have hlast := (hread "" "" nofun nofun ⟨1, 2, 3, "rc\u3000"⟩).1.1
  obtain ⟨log, hperform⟩ :=
    exists_perform_of_loaded (o := {}) rfl (resolve_unconfigured handwritten)
      (load_unconfigured parse_handwritten)
  have hplain := run_of_perform_ok (rfl : readRequired none = .ok none) hperform
  obtain ⟨hcode, houtput, hstate⟩ := hrun (Files.ofTree []) ⟨"/"⟩ {}
    { request := { suffix := some "" } } handwrittenTree "v1.2.3-rc1" rfl rfl rfl
    (congrArg (fun outcome => outcome.1.report) hplain)
  refine ⟨hinner, fun h => hlast h hblank, hcode, houtput, ?_⟩
  exact hstate.trans (congrArg Prod.snd hplain)

end Session

end VersionStamp
