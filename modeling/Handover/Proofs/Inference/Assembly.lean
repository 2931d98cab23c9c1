import Handover.Inference.Evaluator
import Handover.Proofs.Success

/-!
# Assembling an evaluator

Evaluators over both kinds of memberships are assembled in the same way: the three
systems of a rule base are built one after the other.
-/

namespace Handover.Inference.Evaluator

open Fuzzy

variable {α μ δ : Type} [Scalar α] [Grading μ α δ]

/-- An evaluator whose systems are of some kind. -/
def assemble (kind : System α μ → InferenceSystem α) (rules : RuleBase α μ)
    (abstentionThreshold : α) (staleWindow : Nat) : Except (FuzzyError α) (Evaluator α) := do
  let serving ← rules.servingQuality.build
  let neighbour ← rules.neighbourQuality.build
  let trigger ← rules.trigger.build
  .ok ⟨kind serving, kind neighbour, kind trigger, abstentionThreshold, staleWindow⟩

theorem typeOne_eq_assemble : typeOne (α := α) = assemble .typeOne :=
  rfl

theorem typeTwo_eq_assemble : typeTwo (α := α) = assemble .typeTwo :=
  rfl

/-- An evaluator comes out if all three systems can be built. -/
theorem assemble_eq_ok_iff {kind : System α μ → InferenceSystem α} {rules : RuleBase α μ}
    {threshold : α} {window : Nat} {evaluator : Evaluator α} :
    assemble kind rules threshold window = .ok evaluator ↔
      ∃ serving neighbour trigger, rules.servingQuality.build = .ok serving ∧
        rules.neighbourQuality.build = .ok neighbour ∧ rules.trigger.build = .ok trigger ∧
        evaluator = ⟨kind serving, kind neighbour, kind trigger, threshold, window⟩ := by
  constructor
  · intro built
    obtain ⟨serving, first, built⟩ := exists_of_bind_eq_ok built
    obtain ⟨neighbour, second, built⟩ := exists_of_bind_eq_ok built
    obtain ⟨trigger, third, built⟩ := exists_of_bind_eq_ok built
    cases built
    exact ⟨serving, neighbour, trigger, first, second, third, rfl⟩
  · rintro ⟨serving, neighbour, trigger, first, second, third, rfl⟩
    rw [assemble, bind_of_ok first, bind_of_ok second, bind_of_ok third]

end Handover.Inference.Evaluator
