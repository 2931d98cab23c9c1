import Handover.Config.Basic
import Handover.Inference.Evaluator
import Handover.Strategy.Basic

/-!
# Handover by fuzzy inference

Events as in the offset strategy, but a report of a poor serving cell runs the
evaluator instead of a fixed comparison.
-/

namespace Handover.Strategy

open Handover.Fuzzy Handover.Inference

/-- The fuzzy strategy on the A2 and A4 events. -/
structure FuzzyInference (α : Type) where
  /-- Scores the neighbours. -/
  evaluator : Evaluator α
  /-- Quality of the serving cell below which it is poor. -/
  servingThreshold : Level
  /-- Quality above which neighbours are reported. -/
  discoveryThreshold : Level
  /-- Quality samples kept for prediction. -/
  predictorWindow : Nat
  /-- Identity of the event for a poor serving cell, once registered. -/
  servingEvent : Option MeasId
  /-- Identity of the discovery event, once registered. -/
  discoveryEvent : Option MeasId

namespace FuzzyInference

variable {α : Type} [Scalar α]

/-- The result of a fuzzy construction as part of a configuration. -/
def liftFault {ρ : Type} : Except (FuzzyError α) ρ → Except (ConfigError α) ρ
  | .ok value => .ok value
  | .error error => .error (.fuzzy error)

/-- The strategy with an evaluator and the other parameters of a
configuration. -/
def ofEvaluator {μ : Type} (evaluator : Evaluator α) (config : FuzzyConfig α μ) :
    FuzzyInference α where
  evaluator := evaluator
  servingThreshold := config.servingThreshold
  discoveryThreshold := config.discoveryThreshold
  predictorWindow := config.predictorWindow.toNat
  servingEvent := none
  discoveryEvent := none

/-- The strategy over ordinary membership functions. -/
def typeOne (config : FuzzyConfig α (Membership α)) :
    Except (ConfigError α) (FuzzyInference α) := do
  let evaluator ← liftFault
    (Evaluator.typeOne (config.ruleBase.getD BuiltIn.typeOne) config.abstentionThreshold
      (config.staleMillis typeOneStaleMillis * 1000))
  .ok (ofEvaluator evaluator config)

/-- The strategy over footprints of uncertainty. -/
def typeTwo (config : FuzzyConfig α (Footprint α)) :
    Except (ConfigError α) (FuzzyInference α) := do
  let evaluator ← liftFault
    (Evaluator.typeTwo (config.ruleBase.getD BuiltIn.typeTwo) config.abstentionThreshold
      (config.staleMillis typeTwoStaleMillis * 1000))
  .ok (ofEvaluator evaluator config)

/-- Registers the event for a poor serving cell and then the discovery
event. -/
def register (strategy : FuzzyInference α) (configurator : Configurator)
    (interval : ReportInterval) : Registration α (FuzzyInference α) :=
  (registerOne strategy configurator
    ((MeasurementEvent.servingBelow strategy.servingThreshold).every interval)
    fun noted id => { noted with servingEvent := some id }).andThen
    fun registered events =>
      registerOne registered events
        ((MeasurementEvent.neighbourAbove registered.discoveryThreshold).every interval)
        fun noted id => { noted with discoveryEvent := some id }

/-- Runs the evaluator for a terminal. -/
def infer (strategy : FuzzyInference α) (ue : UeId) (report : Report) (store : Store) :
    Evaluation α :=
  let selection :=
    strategy.evaluator.selectTarget (store.stateOf ue) report.time report.servingRsrq
  ⟨store.put ue selection.state, .ok ⟨ue, selection.choice.map Prod.fst⟩, selection.warnings⟩

/-- Evaluates a report. -/
def evaluate (strategy : FuzzyInference α) (ue : UeId) (id : MeasId) (report : Report)
    (store : Store) : Evaluation α :=
  if strategy.discoveryEvent = some id then discover ue id report store
  else if strategy.servingEvent ≠ some id then ⟨store, .error (.unknownEvent id), []⟩
  else
    whenConsistent ue report.servingRsrq strategy.servingThreshold store
      (strategy.infer ue report store)

end FuzzyInference

end Handover.Strategy
