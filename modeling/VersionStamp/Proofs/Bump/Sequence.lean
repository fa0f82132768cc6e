/-
# A request as a sequence of single steps

A request stands for the steps that its flags and its suffix ask for, in the order of the
fields.  Carrying it out hands the version after each step to the sink, one after the other,
and stops at the first refusal; so it comes to the same as carrying out one request for each
step.
-/
import VersionStamp.Proofs.Bump.Sink

namespace VersionStamp

namespace Bump

/-! ## The steps of a request -/

/-- The request asks for the step. -/
def Request.Asks (r : Request) : Step → Prop
  | .major => r.major = true
  | .minor => r.minor = true
  | .patch => r.patch = true
  | .suffix value => r.suffix = some value ∧ value ≠ ""

/-- The steps that are taken are those that the request asks for. -/
theorem mem_steps_iff {r : Request} {step : Step} : step ∈ r.steps ↔ r.Asks step := by
  cases step <;> simp [Request.steps, Request.newSuffix?, Request.Asks]

/-- The steps are taken in the order of the fields, at most one for each. -/
theorem fields_steps_sublist (r : Request) : (r.steps.map Step.field).Sublist Field.all := by
  have hflag : ∀ (b : Bool) (step : Step),
      ((if b then [step] else []).map Step.field).Sublist [step.field] := by
    intro b step
    cases b <;> simp
  have hsuffix : ((r.newSuffix?.map Step.suffix).toList.map Step.field).Sublist [.suffix] := by
    cases r.newSuffix? <;> simp [Step.field]
  rw [Request.steps, List.map_append, List.map_append, List.map_append]
  exact (((hflag r.major .major).append (hflag r.minor .minor)).append
    (hflag r.patch .patch)).append hsuffix

/-! ## One request for each step -/

/-- The request for a single step. -/
def Step.request : Step → Request
  | major => { major := true }
  | minor => { minor := true }
  | patch => { patch := true }
  | suffix value => { suffix := some value }

/-- The requests with one flag or suffix each that make up a request, in the order of the fields. -/
def Request.singles (r : Request) : List Request :=
  r.steps.map Step.request

/-- The request for a step asks for that step only. -/
theorem steps_request {step : Step} (h : step ≠ .suffix "") : step.request.steps = [step] := by
  cases step with
  | suffix value =>
    have hne : value ≠ "" := fun hv => h (hv ▸ rfl)
    simp [Step.request, Request.steps, Request.newSuffix?, hne]
  | _ => rfl

variable {ε : Type} {m : Type → Type} [Monad m]

/-- Carries out requests one after the other, up to the first that fails, and adds up the numbers
of stored versions. -/
def applyEach (store : Version → m (Except ε Unit)) (verbose : Bool) :
    List Request → Version → m (Outcome ε)
  | [], v => pure ⟨v, .ok 0, []⟩
  | r :: rest, v => do
    let first ← apply store verbose r v
    match first.result with
    | .error e => pure ⟨first.version, .error e, first.log⟩
    | .ok n =>
      let later ← applyEach store verbose rest first.version
      pure ⟨later.version, later.result.map (n + ·), first.log ++ later.log⟩

/-- Steps taken in one request or in one request each come to the same. -/
theorem run_eq_applyEach [LawfulMonad m] (store : Version → m (Except ε Unit)) (verbose : Bool)
    {steps : List Step} (h : .suffix "" ∉ steps) (v : Version) :
    run store verbose steps v = applyEach store verbose (steps.map Step.request) v := by
  induction steps generalizing v with
  | nil => rfl
  | cons step rest ih =>
    rw [List.mem_cons, not_or] at h
    have hrest := ih h.2
    rw [List.map_cons, applyEach, apply, steps_request (Ne.symm h.1), run, run]
    simp only [bind_assoc]
    congr 1
    -- Both hand the same version to the sink, and go on by its answer.
    funext answer
    cases answer with
    | error e => simp
    | ok _ => simp [run, hrest, Nat.add_comm, Except.map]

/-- No step of a request sets an empty suffix. -/
theorem emptySuffix_not_mem_steps (r : Request) : .suffix "" ∉ r.steps := by
  rw [mem_steps_iff]
  rintro ⟨-, hne⟩
  exact hne rfl

/-! ## A request against any sink -/

/-- **A request against any sink.**  Its steps are those asked for, in the order of the fields.
The versions after the steps are handed to the sink in turn and nothing else is.  Either all are
accepted, and the last one is in memory with their number as the result; or the first refusal is
the result, the versions before it are stored, and the refused one is in memory.  The same comes
of one request for each step. -/
theorem apply_to_sink {σ : Type} (store : Sink σ ε) (verbose : Bool) (r : Request) (v : Version)
    (s : σ) :
    let after := fun k => applyAll (r.steps.take k) v
    let offered := fun k => versions (r.steps.take k) v
    ((r.steps.map Step.field).Sublist Field.all ∧ ∀ step, step ∈ r.steps ↔ r.Asks step) ∧
    (∃ outcome calls,
      (apply store.watched verbose r v).run (s, []) =
        (outcome, (store.stateAfter (calls.map Prod.fst) s, calls)) ∧
      (apply store verbose r v).run s = (outcome, store.stateAfter (calls.map Prod.fst) s) ∧
      ((store.Accepts (offered r.steps.length) s ∧
          calls = (offered r.steps.length).map (fun w => (w, .ok ())) ∧
          outcome.result = .ok r.steps.length ∧ outcome.version = after r.steps.length) ∨
        ∃ k e, k < r.steps.length ∧ store.Accepts (offered k) s ∧
          store.answer (after (k + 1)) (store.stateAfter (offered k) s) = .error e ∧
          calls = (offered k).map (fun w => (w, .ok ())) ++ [(after (k + 1), .error e)] ∧
          outcome.result = .error e ∧ outcome.version = after (k + 1))) ∧
    (apply store verbose r v).run s = (applyEach store verbose r.singles v).run s := by
  intro after offered
  refine ⟨⟨fields_steps_sublist r, fun step => mem_steps_iff⟩, ?_, ?_⟩
  · rcases accepts_or_refuses store r.steps v s with hall | hrefused
    · have hafter : after r.steps.length = applyAll r.steps v := by
        simp only [after, List.take_length]
      have hoffered : offered r.steps.length = versions r.steps v := by
        simp only [offered, List.take_length]
      refine ⟨⟨applyAll r.steps v, .ok r.steps.length, storedEntries verbose r.steps v⟩,
        (versions r.steps v).map fun w => (w, .ok ()), ?_, ?_, Or.inl ?_⟩
      · rw [apply, run_watched_of_accepts store hall, map_fst_accepted]
      · rw [apply, run_of_accepts hall, map_fst_accepted]
      · rw [hafter, hoffered]
        exact ⟨hall, rfl, rfl, rfl⟩
    · obtain ⟨done, step, rest, e, hsteps, hdone, he⟩ := hrefused
      have hoffered : offered done.length = versions done v := by
        simp only [offered, hsteps, List.take_left]
      have hafter : after (done.length + 1) = step.apply (applyAll done v) := by
        simp only [after, hsteps, List.take_length_add_append]
        exact applyAll_append done [step] v
      have hlt : done.length < r.steps.length := by
        simp [hsteps]
      refine ⟨⟨step.apply (applyAll done v), .error e, storedEntries verbose done v⟩,
        (versions done v).map (fun w => (w, .ok ())) ++ [(step.apply (applyAll done v), .error e)],
        ?_, ?_, Or.inr ⟨done.length, e, hlt, ?_⟩⟩
      · rw [apply, hsteps, run_watched_of_refuses store hdone he, List.map_append,
          map_fst_accepted, List.map_singleton, stateAfter_append_singleton]
      · rw [apply, hsteps, run_of_refuses hdone he, List.map_append, map_fst_accepted,
          List.map_singleton, stateAfter_append_singleton]
      · rw [hafter, hoffered]
        exact ⟨hdone, he, rfl, rfl, rfl⟩
  · rw [apply, run_eq_applyEach store verbose (emptySuffix_not_mem_steps r)]
    rfl

end Bump

end VersionStamp
