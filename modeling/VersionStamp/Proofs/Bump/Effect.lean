/-
# What a request makes of a version

When nothing is refused, all that counts of a request is the version it leads to.  A request
that changes nothing leads to the version it started from, and no request makes a version that
could not be written.
-/
import VersionStamp.Header
import VersionStamp.Proofs.Bump.Sequence

namespace VersionStamp

namespace Bump

/-! ## The effect of a request -/

/-- The version after a request: bumped as the flags ask, in the order of the fields, and then
with the new suffix if there is one. -/
def Request.effect (r : Request) (v : Version) : Version :=
  let v := if r.major then v.bumpMajor else v
  let v := if r.minor then v.bumpMinor else v
  let v := if r.patch then v.bumpPatch else v
  match r.newSuffix? with
  | none => v
  | some suffix => v.withSuffix suffix

/-- The effect of a request is that of its steps. -/
theorem applyAll_steps (r : Request) (v : Version) : applyAll r.steps v = r.effect v := by
  have hflag : ∀ (b : Bool) (step : Step) (w : Version),
      applyAll (if b then [step] else []) w = if b then step.apply w else w := by
    intro b step w
    cases b <;> rfl
  have hsuffix : ∀ (suffix? : Option String) (w : Version),
      applyAll (suffix?.map Step.suffix).toList w =
        match suffix? with
        | none => w
        | some suffix => w.withSuffix suffix := by
    intro suffix? w
    cases suffix? <;> rfl
  rw [Request.steps, applyAll_append, applyAll_append, applyAll_append, hflag, hflag, hflag,
    hsuffix]
  rfl

/-- A request has no steps if it changes nothing. -/
theorem steps_eq_nil_iff {r : Request} : r.steps = [] ↔ r.isMutating = false := by
  simp [Request.steps, Request.isMutating, and_assoc]

/-- A request that changes nothing stores nothing, wherever it is carried out. -/
theorem apply_of_not_isMutating {ε : Type} {m : Type → Type} [Monad m] {r : Request}
    (h : r.isMutating = false) (store : Version → m (Except ε Unit)) (verbose : Bool)
    (v : Version) : apply store verbose r v = pure ⟨v, .ok 0, []⟩ := by
  rw [apply, steps_eq_nil_iff.2 h, run]

/-- A request that changes nothing has no effect. -/
theorem effect_of_not_isMutating {r : Request} (h : r.isMutating = false) (v : Version) :
    r.effect v = v := by
  rw [← applyAll_steps, steps_eq_nil_iff.2 h]
  rfl

/-- The version after requests that are carried out in turn. -/
def effectAll (requests : List Request) (v : Version) : Version :=
  requests.foldl (fun w r => r.effect w) v

/-- The last of the requests acts on what the others lead to. -/
theorem effectAll_append_singleton (done : List Request) (r : Request) (v : Version) :
    effectAll (done ++ [r]) v = r.effect (effectAll done v) :=
  List.foldl_append

/-! ## Versions that can be written -/

/-- The suffix of the request, if it has one, is one that can be written. -/
def Request.IsWritable (r : Request) : Prop :=
  ∀ suffix, r.suffix = some suffix → Header.acceptsSuffix suffix = true

instance (r : Request) : Decidable r.IsWritable :=
  decidable_of_iff (r.suffix.all Header.acceptsSuffix = true) (by
    unfold Request.IsWritable
    cases r.suffix <;> simp)

/-- A step leads to an accepted suffix if it does not set another one. -/
theorem acceptsSuffix_apply {step : Step} {v : Version}
    (hstep : ∀ suffix, step = .suffix suffix → Header.acceptsSuffix suffix = true) :
    Header.acceptsSuffix (step.apply v).suffix = true := by
  cases step with
  | suffix value => exact hstep value rfl
  | _ => rfl

/-- Steps lead to an accepted suffix if none of them sets another one. -/
theorem acceptsSuffix_applyAll {steps : List Step} {v : Version}
    (hv : Header.acceptsSuffix v.suffix = true)
    (hsteps : ∀ suffix, .suffix suffix ∈ steps → Header.acceptsSuffix suffix = true) :
    Header.acceptsSuffix (applyAll steps v).suffix = true := by
  induction steps generalizing v with
  | nil => exact hv
  | cons step rest ih =>
    -- Every step but one that sets a suffix clears it.
    have hfirst : Header.acceptsSuffix (step.apply v).suffix = true := by
      refine acceptsSuffix_apply ?_
      rintro suffix rfl
      exact hsteps suffix List.mem_cons_self
    exact ih hfirst fun suffix hmem => hsteps suffix (List.mem_cons_of_mem _ hmem)

/-- A version that can be written is followed by one that can be written. -/
theorem acceptsSuffix_effect {r : Request} (hr : r.IsWritable) {v : Version}
    (hv : Header.acceptsSuffix v.suffix = true) :
    Header.acceptsSuffix (r.effect v).suffix = true := by
  rw [← applyAll_steps]
  refine acceptsSuffix_applyAll hv ?_
  intro suffix hmem
  exact hr suffix (mem_steps_iff.1 hmem).1

end Bump

end VersionStamp
