/-
# Outcomes that may be faults

When a computation that may fail ends with a result, and when with a fault: for two computations in
a row, for a result that is changed, and for a fault that is given in other words.
-/

namespace VersionStamp

variable {ε ε' α β : Type}

/-- Two computations in a row succeed if both do. -/
theorem bind_eq_ok_iff {first : Except ε α} {next : α → Except ε β} {b : β} :
    first >>= next = .ok b ↔ ∃ a, first = .ok a ∧ next a = .ok b := by
  cases first with
  | error e =>
    constructor
    · intro h
      cases h
    · rintro ⟨a, h, -⟩
      cases h
  | ok a =>
    constructor
    · intro h
      exact ⟨a, rfl, h⟩
    · rintro ⟨a', h, hnext⟩
      cases h
      exact hnext

/-- Two computations in a row fail if the first one does, or if only the second one does. -/
theorem bind_eq_error_iff {first : Except ε α} {next : α → Except ε β} {e : ε} :
    first >>= next = .error e ↔ first = .error e ∨ ∃ a, first = .ok a ∧ next a = .error e := by
  cases first with
  | error e' =>
    constructor
    · intro h
      cases h
      exact Or.inl rfl
    · rintro (h | ⟨a, h, -⟩)
      · cases h
        rfl
      · cases h
  | ok a =>
    constructor
    · intro h
      exact Or.inr ⟨a, rfl, h⟩
    · rintro (h | ⟨a', h, hnext⟩)
      · cases h
      · cases h
        exact hnext

/-- A computation whose result is changed succeeds if the computation does. -/
theorem map_eq_ok_iff {f : α → β} {outcome : Except ε α} {b : β} :
    outcome.map f = .ok b ↔ ∃ a, outcome = .ok a ∧ b = f a := by
  cases outcome with
  | error e => simp [Except.map]
  | ok a => simp [Except.map, eq_comm]

/-- Failing for another reason is still failing. -/
theorem mapError_eq_ok_iff {reason : ε → ε'} {outcome : Except ε α} {a : α} :
    outcome.mapError reason = .ok a ↔ outcome = .ok a := by
  cases outcome with
  | error e => constructor <;> intro h <;> cases h
  | ok b => constructor <;> intro h <;> cases h <;> rfl

end VersionStamp
