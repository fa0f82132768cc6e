/-
# A session on a file that is there to stay

A version file that is there to stay holds a text which is read as some version.  A session takes
that version to the next by the effect of its request, and leaves a text that is read as the next
version.
-/
import VersionStamp.Proofs.Bump.Effect
import VersionStamp.Proofs.Session.Course
import VersionStamp.Proofs.Store.Access

namespace VersionStamp

namespace Session

variable {σ : Type} {files : Files (StateM σ)} {store : Store} {holds : σ → String → Prop}
  {s : σ} {text : String} {v : Version}

/-- The version file holds a text, and the text is read as a version. -/
structure Stands (holds : σ → String → Prop) (s : σ) (text : String) (v : Version) : Prop where
  held : holds s text
  parsed : Header.parse text = .ok v

variable (hkeeps : files.Keeps store.path holds)
include hkeeps

/-- Versions that are stored in turn are all accepted, and the file holds the last one. -/
theorem accepts_of_holds (steps : List Bump.Step) (hholds : holds s text) :
    Bump.Sink.Accepts (store.persist files) (Bump.versions steps v) s ∧
      holds (Bump.Sink.stateAfter (store.persist files) (Bump.versions steps v) s)
        (if steps = [] then text else Header.render store.stem (Bump.applyAll steps v)) := by
  induction steps generalizing v s text with
  | nil => exact ⟨trivial, hholds⟩
  | cons step rest ih =>
    obtain ⟨s', hpersist, hnew⟩ := store.persist_of_holds hkeeps hholds (step.apply v)
    have hanswer : Bump.Sink.answer (store.persist files) (step.apply v) s = .ok () :=
      congrArg Prod.fst hpersist
    have hnext : Bump.Sink.next (store.persist files) (step.apply v) s = s' :=
      congrArg Prod.snd hpersist
    obtain ⟨haccepts, hlast⟩ := ih (v := step.apply v) hnew
    constructor
    · show _ ∧ Bump.Sink.Accepts _ _ (Bump.Sink.next _ _ s)
      rw [hnext]
      exact ⟨hanswer, haccepts⟩
    · show holds (Bump.Sink.stateAfter _ _ (Bump.Sink.next _ _ s)) _
      rw [hnext, if_neg (List.cons_ne_nil step rest)]
      -- The last version is the one of this step if no other step follows.
      by_cases hrest : rest = []
      · subst hrest
        exact hlast
      · rw [if_neg hrest] at hlast
        exact hlast

/-- A bump succeeds with the effect of its request, and the file holds the new version. -/
theorem bump_of_holds (verbose : Bool) (r : Bump.Request) (hholds : holds s text) :
    ∃ log s', (bump files store verbose r v).run s = ((log, .ok (r.effect v)), s') ∧
      holds s' (if r.isMutating then Header.render store.stem (r.effect v) else text) := by
  obtain ⟨haccepts, hlast⟩ := accepts_of_holds (v := v) hkeeps r.steps hholds
  have hrun := bump_run_of_accepts verbose haccepts
  rw [Bump.applyAll_steps] at hrun hlast
  have htext : (if r.steps = [] then text else Header.render store.stem (r.effect v)) =
      if r.isMutating then Header.render store.stem (r.effect v) else text := by
    cases hr : r.isMutating with
    | true =>
      have hsteps : r.steps ≠ [] := by
        rw [Ne, Bump.steps_eq_nil_iff, hr]
        decide
      rw [if_neg hsteps, if_pos rfl]
    | false => rw [if_pos (Bump.steps_eq_nil_iff.2 hr), if_neg Bool.false_ne_true]
  rw [htext] at hlast
  exact ⟨_, _, hrun, hlast⟩

/-- **One session.**  From a file that stands for a version, a session takes the version to the
effect of its request, and leaves a file that stands for it. -/
theorem update_of_stands (hstem : Header.IsSafeStem store.stem) (verbose : Bool) {r : Bump.Request}
    (hr : r.IsWritable) (h : Stands holds s text v) :
    ∃ log s', (update files store verbose r).run s = ((log, .ok (r.effect v)), s') ∧
      Stands holds s' (if r.isMutating then Header.render store.stem (r.effect v) else text)
        (r.effect v) := by
  obtain ⟨s₁, hload, hkept⟩ := store.load_of_holds hkeeps h.held h.parsed
  obtain ⟨log, s₂, hbump, hheld⟩ := bump_of_holds (v := v) hkeeps verbose r hkept
  refine ⟨Log.note verbose (located store) ++ log, s₂, ?_, hheld, ?_⟩
  · rw [update_run_of_loaded hload, hbump]
  · -- What is written is read back, and what is left was read before.
    cases hmutating : r.isMutating with
    | true =>
      have hsuffix := Bump.acceptsSuffix_effect hr (Header.acceptsSuffix_of_parse h.parsed)
      rw [if_pos rfl]
      exact Header.parse_render hstem hsuffix
    | false =>
      rw [if_neg Bool.false_ne_true, Bump.effect_of_not_isMutating hmutating]
      exact h.parsed

end Session

end VersionStamp
