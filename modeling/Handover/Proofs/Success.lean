/-!
# Computations that succeed

What a successful result tells of the parts that it was computed from.
-/

namespace Handover

variable {ε ρ τ : Type}

/-- A sequence succeeds only if its first part does. -/
theorem exists_of_bind_eq_ok {first : Except ε ρ} {next : ρ → Except ε τ}
    {result : τ} (succeeds : first >>= next = .ok result) :
    ∃ value, first = .ok value ∧ next value = .ok result := by
  cases first with
  | error error => cases succeeds
  | ok value => exact ⟨value, rfl, succeeds⟩

/-- A sequence goes on with the value of its first part. -/
theorem bind_of_ok {first : Except ε ρ} {value : ρ} (succeeds : first = .ok value)
    (next : ρ → Except ε τ) : first >>= next = next value := by
  rw [succeeds]
  rfl

theorem exists_of_map_eq_ok {first : Except ε ρ} {change : ρ → τ} {result : τ}
    (succeeds : first.map change = .ok result) :
    ∃ value, first = .ok value ∧ change value = result := by
  cases first with
  | error error => cases succeeds
  | ok value =>
      cases succeeds
      exact ⟨value, rfl, rfl⟩

/-- A test of the result passes only if there is one. -/
theorem exists_of_any_toOption {result : Except ε ρ} {test : ρ → Bool}
    (passed : result.toOption.any test = true) :
    ∃ value, result = .ok value ∧ test value = true := by
  cases result with
  | error error => cases passed
  | ok value => exact ⟨value, rfl, passed⟩

end Handover
