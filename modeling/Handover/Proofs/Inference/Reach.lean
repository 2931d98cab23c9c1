import Handover.Config.Basic
import Handover.Proofs.Fuzzy.Range
import Handover.Proofs.Inference.Assembly
import Handover.Proofs.Inference.Selection

/-!
# Scores and the threshold

The desirability of a handover stays in the output range of its system.  If the
threshold is not below that range, then no neighbour qualifies and no target is ever
chosen.
-/

namespace Handover

open Fuzzy Inference Scalar

/-! ## Configurations -/

section Configurations

variable {α : Type} [Scalar α]

/-- The range of the desirability does not go beyond the threshold. -/
def FuzzyConfig.OutOfReach {μ : Type} (config : FuzzyConfig α μ) (usual : RuleBase α μ) : Prop :=
  (config.ruleBase.getD usual).trigger.output.domain.max ≤ config.abstentionThreshold

/-- The algorithm is a fuzzy one, and no desirability can exceed its threshold. -/
def AlgorithmConfig.OutOfReach : AlgorithmConfig α → Prop
  | typeOne config => config.OutOfReach BuiltIn.typeOne
  | typeTwo config => config.OutOfReach BuiltIn.typeTwo
  | _ => False

end Configurations

namespace Inference

variable {K : Type} [Field K] [LinearOrder K] [FloorSemiring K] [Exponential K]

namespace InferenceSystem

/-- Every answer of the system lies in the range. -/
def Within (system : InferenceSystem (Extended K)) (range : Domain (Extended K)) : Prop :=
  ∀ crisp score, system.evaluate crisp = .ok score → range.Contains score

variable [IsStrictOrderedRing K]

theorem within_typeOne {definition : TypeOneDefinition (Extended K)}
    {system : TypeOneSystem (Extended K)} (built : definition.build = .ok system) :
    (typeOne system).Within definition.output.domain := by
  rw [← (Definition.builds_of_build built).output]
  exact fun crisp score answered => TypeOne.evaluate_contained built answered

theorem within_typeTwo {definition : TypeTwoDefinition (Extended K)}
    {system : TypeTwoSystem (Extended K)} (built : definition.build = .ok system) :
    (typeTwo system).Within definition.output.domain := by
  rw [← (Definition.builds_of_build built).output]
  exact fun crisp score answered => TypeTwo.evaluate_contained built answered

end InferenceSystem

namespace Evaluator

variable {evaluator : Evaluator (Extended K)}

/-- The evaluator of a rule base keeps the desirability in its range. -/
theorem within_of_assemble {μ δ : Type} [Grading μ (Extended K) δ]
    {kind : System (Extended K) μ → InferenceSystem (Extended K)}
    (within : ∀ {definition : Definition (Extended K) μ} {system : System (Extended K) μ},
      definition.build = .ok system → (kind system).Within definition.output.domain)
    {rules : RuleBase (Extended K) μ} {threshold : Extended K} {window : Nat}
    (built : assemble kind rules threshold window = .ok evaluator) :
    evaluator.triggerSystem.Within rules.trigger.output.domain ∧
      evaluator.abstentionThreshold = threshold := by
  obtain ⟨serving, neighbour, trigger, _, _, third, rfl⟩ := assemble_eq_ok_iff.mp built
  exact ⟨within third, rfl⟩

/-- No score exceeds a threshold that the range does not go beyond. -/
theorem not_lt_score {range : Domain (Extended K)}
    (within : evaluator.triggerSystem.Within range)
    (reach : range.max ≤ evaluator.abstentionThreshold) {serving score : Extended K}
    {record : NeighbourRecord} (scored : evaluator.score serving record = .ok score) :
    ¬evaluator.abstentionThreshold < score := by
  obtain ⟨neighbour, _, scored⟩ := exists_of_bind_eq_ok scored
  have contained := within _ score scored
  have below := Extended.le_trans contained.2 reach
  have numeric := Extended.ne_notNumber_of_le below
  exact (Extended.not_lt numeric.2 numeric.1).mpr below

theorem selectTarget_choice_of_outOfReach {range : Domain (Extended K)}
    (within : evaluator.triggerSystem.Within range)
    (reach : range.max ≤ evaluator.abstentionThreshold)
    (state : UeState) (now : Instant) (servingRsrq : Level) :
    (evaluator.selectTarget state now servingRsrq).choice = none := by
  cases picked : (evaluator.selectTarget state now servingRsrq).choice with
  | none => rfl
  | some chosen =>
      obtain ⟨_, _, above, _, scored⟩ := evaluator.selectTarget_grounded picked
      exact absurd above (not_lt_score within reach scored)

end Evaluator

end Inference

end Handover
