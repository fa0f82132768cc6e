/-
# What is logged of the calls to a sink

A sink that is watched keeps every version that is handed to it, with the answer.  So the calls, the
log and the number of stored versions can be compared, whatever the sink answers:

* `run_eq_watched` : watching a sink changes nothing else;
* `accepted_run`, `log_run` : the versions that were accepted, and the log, are those of the same
  steps, which are the first ones up to a refusal;
* `eq_of_run_ok` : if nothing is refused, these are all steps, and their number is the result;
* `calls_run_eq_nil_iff` : the sink is called if there is a step at all.
-/
import VersionStamp.Proofs.Bump.Effect

namespace VersionStamp

namespace Bump

variable {σ ε : Type}

/-! ## Calls that were accepted -/

/-- The versions that were accepted, in the order of the calls. -/
def Sink.accepted (calls : List (Version × Except ε Unit)) : List Version :=
  calls.filterMap fun call =>
    match call.2 with
    | .ok () => some call.1
    | .error _ => none

/-- All calls with the answer of a sink that accepts are accepted. -/
theorem accepted_map_ok (vs : List Version) :
    Sink.accepted (vs.map fun v => (v, (.ok () : Except ε Unit))) = vs := by
  induction vs with
  | nil => rfl
  | cons v rest ih => exact congrArg (v :: ·) ih

/-- A refused call is not accepted. -/
theorem accepted_append_error (calls : List (Version × Except ε Unit)) (v : Version) (e : ε) :
    Sink.accepted (calls ++ [(v, .error e)]) = Sink.accepted calls := by
  rw [Sink.accepted, List.filterMap_append]
  exact List.append_nil _

/-! ## The steps whose versions are accepted -/

section

variable (store : Sink σ ε) (verbose : Bool) (steps : List Step) (v : Version) (s : σ)

/-- The steps that are accepted are the first ones. -/
theorem acceptedSteps_prefix : acceptedSteps store steps v s <+: steps := by
  rcases accepts_or_refuses store steps v s with hall | ⟨done, step, rest, e, rfl, hdone, he⟩
  · exact ⟨[], by rw [List.append_nil, acceptedSteps_of_accepts hall]⟩
  · rw [acceptedSteps_of_refuses hdone he]
    exact List.prefix_append done _

/-- Watching a sink changes neither the outcome nor the state that is left. -/
theorem run_eq_watched :
    (run store verbose steps v).run s =
      let watched := (run store.watched verbose steps v).run (s, [])
      (watched.1, watched.2.1) := by
  rcases accepts_or_refuses store steps v s with hall | ⟨done, step, rest, e, rfl, hdone, he⟩
  · rw [run_of_accepts hall, run_watched_of_accepts store hall]
  · rw [run_of_refuses hdone he, run_watched_of_refuses store hdone he]

/-- The versions that a sink accepts are those after the steps that are accepted. -/
theorem accepted_run :
    Sink.accepted ((run store.watched verbose steps v).run (s, [])).2.2 =
      versions (acceptedSteps store steps v s) v := by
  rcases accepts_or_refuses store steps v s with hall | ⟨done, step, rest, e, rfl, hdone, he⟩
  · rw [run_watched_of_accepts store hall, acceptedSteps_of_accepts hall, accepted_map_ok]
  · rw [run_watched_of_refuses store hdone he, acceptedSteps_of_refuses hdone he,
      accepted_append_error, accepted_map_ok]

/-- The steps that are accepted are logged, and no others. -/
theorem log_run :
    ((run store verbose steps v).run s).1.log =
      storedEntries verbose (acceptedSteps store steps v s) v := by
  rcases accepts_or_refuses store steps v s with hall | ⟨done, step, rest, e, rfl, hdone, he⟩
  · rw [run_of_accepts hall, acceptedSteps_of_accepts hall]
  · rw [run_of_refuses hdone he, acceptedSteps_of_refuses hdone he]

/-- A sink is called if and only if there is a step to take. -/
theorem calls_run_eq_nil_iff :
    ((run store.watched verbose steps v).run (s, [])).2.2 = [] ↔ steps = [] := by
  rcases accepts_or_refuses store steps v s with hall | ⟨done, step, rest, e, rfl, hdone, he⟩
  · rw [run_watched_of_accepts store hall, List.map_eq_nil_iff]
    cases steps with
    | nil => exact iff_of_true rfl rfl
    | cons step rest => exact iff_of_false nofun nofun
  · rw [run_watched_of_refuses store hdone he]
    simp

variable {store verbose steps v s}

/-- If no version is refused, all steps are accepted, their number is the result, and the last of
their versions is in memory. -/
theorem eq_of_run_ok {n : Nat} (h : ((run store verbose steps v).run s).1.result = .ok n) :
    acceptedSteps store steps v s = steps ∧ n = steps.length ∧
      ((run store verbose steps v).run s).1.version = applyAll steps v := by
  rcases accepts_or_refuses store steps v s with hall | ⟨done, step, rest, e, rfl, hdone, he⟩
  · rw [run_of_accepts hall] at h ⊢
    cases h
    exact ⟨acceptedSteps_of_accepts hall, rfl, rfl⟩
  · rw [run_of_refuses hdone he] at h
    cases h

end

/-! ## The versions and the entries of steps, one by one -/

/-- The version after one of the steps is that after all steps up to it. -/
theorem getElem?_versions (steps : List Step) (v : Version) (i : Nat) :
    (versions steps v)[i]? = steps[i]?.map fun _ => applyAll (steps.take (i + 1)) v := by
  induction steps generalizing v i with
  | nil => rfl
  | cons step rest ih =>
    cases i with
    | zero => rfl
    | succ i =>
      rw [versions, List.getElem?_cons_succ, List.getElem?_cons_succ, ih]
      rfl

/-- The last of the versions is the one after all steps. -/
theorem getLast?_versions {steps : List Step} (h : steps ≠ []) (v : Version) :
    (versions steps v).getLast? = some (applyAll steps v) := by
  induction steps generalizing v with
  | nil => exact absurd rfl h
  | cons step rest ih =>
    cases rest with
    | nil => rfl
    | cons next more => exact ih (List.cons_ne_nil next more) (step.apply v)

/-- In a verbose log, the entry of a step names the step and the version after it. -/
theorem getElem?_storedEntries (steps : List Step) (v : Version) (i : Nat) :
    (storedEntries true steps v)[i]? =
      steps[i]?.map fun step => stored step (applyAll (steps.take (i + 1)) v) := by
  induction steps generalizing v i with
  | nil => rfl
  | cons step rest ih =>
    cases i with
    | zero => rfl
    | succ i =>
      show (storedEntries true rest (step.apply v))[i]? = _
      rw [ih, List.getElem?_cons_succ]
      rfl

/-- In a verbose log there is one entry for each step. -/
theorem length_storedEntries (steps : List Step) (v : Version) :
    (storedEntries true steps v).length = steps.length := by
  induction steps generalizing v with
  | nil => rfl
  | cons step rest ih => exact congrArg (· + 1) (ih (step.apply v))

/-- **What is accepted is logged.**  Each of the versions that a sink accepts is the one after the
step in the same place, and in a verbose log the entry in the same place names both. -/
theorem getElem?_log_run {store : Sink σ ε} {steps : List Step} {v w : Version} {s : σ} {i : Nat}
    (h : (Sink.accepted ((run store.watched true steps v).run (s, [])).2.2)[i]? = some w) :
    ∃ step, steps[i]? = some step ∧ w = applyAll (steps.take (i + 1)) v ∧
      ((run store true steps v).run s).1.log[i]? = some (stored step w) := by
  obtain ⟨rest, hsteps⟩ := acceptedSteps_prefix store steps v s
  rw [accepted_run, getElem?_versions] at h
  rw [log_run]
  -- The steps that are accepted are the first ones of all.
  generalize acceptedSteps store steps v s = done at h hsteps ⊢
  subst hsteps
  obtain ⟨step, hstep, rfl⟩ := Option.map_eq_some_iff.1 h
  obtain ⟨hlt, -⟩ := List.getElem?_eq_some_iff.1 hstep
  refine ⟨step, ?_, ?_, ?_⟩
  · rw [List.getElem?_append_left hlt, hstep]
  · rw [List.take_append_of_le_length hlt]
  · rw [getElem?_storedEntries, hstep, Option.map_some]

/-- The steps that were stored are details. -/
theorem level_of_mem_storedEntries {verbose : Bool} {steps : List Step} {v : Version}
    {entry : Log.Entry} (h : entry ∈ storedEntries verbose steps v) : entry.level = .debug := by
  induction steps generalizing v with
  | nil => cases h
  | cons step rest ih =>
    rcases List.mem_append.1 h with hfirst | hrest
    · cases verbose with
      | true => rw [List.mem_singleton.1 hfirst]; rfl
      | false => cases hfirst
    · exact ih hrest

end Bump

end VersionStamp
