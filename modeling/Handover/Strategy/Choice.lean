import Handover.Strategy.BestNeighbour
import Handover.Strategy.Fuzzy
import Handover.Strategy.Offset

/-!
# The chosen strategy

One strategy is chosen by the configuration, and every report goes through it.
-/

namespace Handover

open Strategy

/-- A handover strategy. -/
inductive HandoverStrategy (α : Type) where
  /-- Never hands over and needs no events. -/
  | noOp
  /-- Hands over to the best neighbour. -/
  | bestNeighbour (strategy : BestNeighbour)
  /-- Hands over to a neighbour better by an offset. -/
  | offset (strategy : Offset)
  /-- Infers a target with ordinary membership functions. -/
  | typeOne (strategy : FuzzyInference α)
  /-- Infers a target with footprints of uncertainty. -/
  | typeTwo (strategy : FuzzyInference α)

namespace HandoverStrategy

variable {α : Type} [Scalar α]

/-- The strategy of a configuration, whose parameters need not have been
checked. -/
def ofConfig : AlgorithmConfig α → Except (ConfigError α) (HandoverStrategy α)
  | .noOp => .ok .noOp
  | .bestNeighbour hysteresis timeToTrigger =>
    (BestNeighbour.ofParameters hysteresis timeToTrigger).map .bestNeighbour
  | .offset servingThreshold neighbourOffset =>
    .ok (.offset (.ofParameters servingThreshold neighbourOffset))
  | .typeOne config => (FuzzyInference.typeOne config).map .typeOne
  | .typeTwo config => (FuzzyInference.typeTwo config).map .typeTwo

/-- Name of the algorithm. -/
def name : HandoverStrategy α → String
  | noOp => "no-op"
  | bestNeighbour _ => "a3-rsrq"
  | offset _ => "a2-a4-rsrq"
  | typeOne _ => "type1-fuzzy"
  | typeTwo _ => "type2-fuzzy"

/-- Samples that the store should keep per history. -/
def historyLength : HandoverStrategy α → Nat
  | typeOne strategy => strategy.predictorWindow
  | typeTwo strategy => strategy.predictorWindow
  | _ => defaultHistoryLength

/-- Identities of the events of the strategy, in the order of registration. -/
def eventIds : HandoverStrategy α → List (Option MeasId)
  | noOp => []
  | bestNeighbour strategy => [strategy.event]
  | offset strategy => [strategy.servingEvent, strategy.discoveryEvent]
  | typeOne strategy => [strategy.servingEvent, strategy.discoveryEvent]
  | typeTwo strategy => [strategy.servingEvent, strategy.discoveryEvent]

/-- The registration of a part as one of the whole. -/
def liftRegistration {σ : Type} (embed : σ → HandoverStrategy α) (part : Registration α σ) :
    Registration α (HandoverStrategy α) :=
  ⟨embed part.strategy, part.configurator, part.result⟩

/-- Registers the events that the strategy needs. -/
def register (strategy : HandoverStrategy α) (configurator : Configurator)
    (interval : ReportInterval) : Registration α (HandoverStrategy α) :=
  match strategy with
  | .noOp => ⟨.noOp, configurator, .ok ()⟩
  | .bestNeighbour part => liftRegistration .bestNeighbour (part.register configurator interval)
  | .offset part => liftRegistration .offset (part.register configurator interval)
  | .typeOne part => liftRegistration .typeOne (part.register configurator interval)
  | .typeTwo part => liftRegistration .typeTwo (part.register configurator interval)

/-- Evaluates a report. -/
def evaluate (strategy : HandoverStrategy α) (ue : UeId) (id : MeasId) (report : Report)
    (store : Store) : Evaluation α :=
  match strategy with
  | .noOp => ⟨store, .ok (.abstain ue), []⟩
  | .bestNeighbour part => part.evaluate ue id report store
  | .offset part => part.evaluate ue id report store
  | .typeOne part => part.evaluate ue id report store
  | .typeTwo part => part.evaluate ue id report store

end HandoverStrategy

end Handover
