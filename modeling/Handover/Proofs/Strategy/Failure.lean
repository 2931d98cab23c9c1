import Handover.Proofs.Inference.Failure
import Handover.Proofs.Strategy.Registration
import Handover.Strategy.Choice

/-!
# Faults of inferences in strategies

A fuzzy strategy warns of the faults that its inferences have.  No other warning of a
strategy tells of one.
-/

namespace Handover

open Fuzzy Inference Trend

namespace AlgorithmConfig

variable {α : Type} [Scalar α]

/-- Numbers of inputs of the link qualities of a fuzzy algorithm. -/
def linkInputs? : AlgorithmConfig α → Option (Role → Nat)
  | typeOne config => some (config.ruleBase.getD BuiltIn.typeOne).linkInputs
  | typeTwo config => some (config.ruleBase.getD BuiltIn.typeTwo).linkInputs
  | _ => none

end AlgorithmConfig

namespace Strategy

variable {α : Type} [Scalar α]

namespace FuzzyInference

omit [Scalar α] in
theorem liftFault_ok {ρ : Type} {result : Except (FuzzyError α) ρ} {value : ρ}
    (lifted : liftFault result = .ok value) : result = .ok value := by
  cases result with
  | error fault => cases lifted
  | ok other =>
      cases lifted
      rfl

theorem takes_of_typeOne {config : FuzzyConfig α (Membership α)} {part : FuzzyInference α}
    (built : typeOne config = .ok part) :
    part.evaluator.Takes (config.ruleBase.getD BuiltIn.typeOne).linkInputs := by
  obtain ⟨evaluator, made, built⟩ := exists_of_bind_eq_ok built
  cases built
  exact Evaluator.takes_of_assemble InferenceSystem.takes_typeOne (liftFault_ok made)

theorem takes_of_typeTwo {config : FuzzyConfig α (Footprint α)} {part : FuzzyInference α}
    (built : typeTwo config = .ok part) :
    part.evaluator.Takes (config.ruleBase.getD BuiltIn.typeTwo).linkInputs := by
  obtain ⟨evaluator, made, built⟩ := exists_of_bind_eq_ok built
  cases built
  exact Evaluator.takes_of_assemble InferenceSystem.takes_typeTwo (liftFault_ok made)

end FuzzyInference

omit [Scalar α] in
/-- The warnings of unusable results tell of no fault of an inference. -/
theorem fault?_of_cacheResults (ue : UeId) (time : Instant) (results : List NeighbourResult)
    (store : Store) :
    ∀ warning ∈ (cacheResults (α := α) ue time results store).2, warning.fault? = none := by
  induction results generalizing store with
  | nil => nofun
  | cons result rest ih =>
      rw [cacheResults]
      split
      · exact ih _
      · exact List.forall_mem_cons.mpr ⟨rfl, ih store⟩

omit [Scalar α] in
theorem fault?_of_discover {ue : UeId} {id : MeasId} {report : Report} {store : Store} :
    ∀ warning ∈ (discover (α := α) ue id report store).warnings, warning.fault? = none := by
  rw [discover]
  split
  · nofun
  · exact fault?_of_cacheResults ue report.time report.neighbours store

/-- Every fault that the strategy warns of was met by its evaluator in the state of the
terminal. -/
theorem FuzzyInference.selected_of_warning {part : FuzzyInference α} {ue : UeId} {id : MeasId}
    {report : Report} {store : Store} {warning : Warning α}
    (warned : warning ∈ (part.evaluate ue id report store).warnings) {fault : FuzzyError α}
    (told : warning.fault? = some fault) :
    warning ∈ (part.evaluator.selectTarget (store.stateOf ue) report.time
      report.servingRsrq).warnings := by
  rw [evaluate] at warned
  split at warned
  · cases (fault?_of_discover warning warned).symm.trans told
  · split at warned
    · cases warned
    · rw [whenConsistent] at warned
      split at warned
      · cases List.mem_singleton.mp warned
        cases told
      · exact warned

theorem FuzzyInference.fails_of_warning {part : FuzzyInference α} {ue : UeId} {id : MeasId}
    {report : Report} {store : Store} {warning : Warning α}
    (warned : warning ∈ (part.evaluate ue id report store).warnings) {fault : FuzzyError α}
    (told : warning.fault? = some fault) : part.evaluator.Fails fault := by
  obtain ⟨other, same, fails⟩ := Evaluator.fails_of_warning (selected_of_warning warned told)
  cases same.symm.trans told
  exact fails

/-- If the evaluator never chooses a target, then nothing is ever decided. -/
theorem FuzzyInference.abstains_of_choice {part : FuzzyInference α}
    (never : ∀ state now servingRsrq,
      (part.evaluator.selectTarget state now servingRsrq).choice = none)
    {ue : UeId} {id : MeasId} {report : Report} {store : Store} {decision : Decision}
    (decided : (part.evaluate ue id report store).answer = .ok decision) :
    decision = .abstain ue := by
  rw [evaluate] at decided
  split at decided
  · rw [discover] at decided
    split at decided <;> cases decided
    rfl
  · split at decided
    · cases decided
    · rw [whenConsistent] at decided
      split at decided <;> cases decided
      · rfl
      · rw [never]
        rfl

end Strategy

namespace HandoverStrategy

variable {α : Type} [Scalar α]

/-- The strategy of a fuzzy algorithm takes the inputs that its rule base asks for. -/
theorem takes_of_ofConfig {algorithm : AlgorithmConfig α} {strategy : HandoverStrategy α}
    (chosen : ofConfig algorithm = .ok strategy) {inputs : Role → Nat}
    (fuzzy : algorithm.linkInputs? = some inputs) :
    ∃ part, strategy.fuzzy? = some part ∧ part.evaluator.Takes inputs := by
  cases algorithm with
  | noOp | bestNeighbour _ _ | offset _ _ => cases fuzzy
  | typeOne config =>
      obtain ⟨part, built, rfl⟩ := exists_of_map_eq_ok chosen
      cases fuzzy
      exact ⟨part, rfl, Strategy.FuzzyInference.takes_of_typeOne built⟩
  | typeTwo config =>
      obtain ⟨part, built, rfl⟩ := exists_of_map_eq_ok chosen
      cases fuzzy
      exact ⟨part, rfl, Strategy.FuzzyInference.takes_of_typeTwo built⟩

end HandoverStrategy

end Handover
