import Handover.Strategy.Fuzzy

/-!
# The inference service

The evaluator for hosts that keep it outside: terminals are addressed by the
number of their radio link.  The service remembers which terminal holds a
number, so that a number given to another terminal starts with a clean history.
-/

namespace Handover

open Fuzzy Inference Strategy

/-- The terminal behind a radio link. -/
structure Binding where
  /-- The terminal. -/
  ue : UeId
  /-- Its serving cell. -/
  servingCell : CellId
  /-- Since when. -/
  since : Instant
deriving DecidableEq, Repr

/-- The service. -/
structure Service (α : Type) where
  /-- Scores the neighbours. -/
  evaluator : Evaluator α
  /-- Terminals, by radio link. -/
  bindings : Table Rnti Binding
  /-- What is known of the terminals. -/
  store : Store

/-- A call of the service. -/
inductive ServiceCall where
  /-- The terminal is served by a cell over a radio link. -/
  | serve (time : Instant) (ue : UeId) (cell : CellId) (rnti : Rnti)
  /-- A result for a neighbour. -/
  | neighbour (time : Instant) (rnti : Rnti) (cell : CellId) (rsrp rsrq : Level)
  /-- Look for a target for a terminal whose serving cell has this quality. -/
  | evaluate (time : Instant) (rnti : Rnti) (rsrp rsrq : Level)
deriving DecidableEq, Repr

/-- A service after a call, the target in the answer if the call asks for one,
and the warnings. -/
structure ServiceStep (σ ω : Type) where
  /-- Service afterwards. -/
  service : σ
  /-- Target, the reserved cell standing for none; absent if the call has no
  answer. -/
  answer : Option CellId
  /-- Warnings, in order. -/
  warnings : List ω

/-- Services `σ` with warnings `ω` that can be called. -/
class InferenceService (σ : Type) (ω : outParam Type) where
  /-- Carries out a call. -/
  handle : σ → ServiceCall → ServiceStep σ ω

namespace Service

variable {α : Type} [Scalar α]

/-- A service that knows nothing yet. -/
def ofEvaluator (evaluator : Evaluator α) (historyLength : Nat) : Service α :=
  ⟨evaluator, .empty, .empty historyLength⟩

/-- The service of a configuration with ordinary membership functions. -/
def typeOne (config : FuzzyConfig α (Membership α)) : Except (ConfigError α) (Service α) := do
  config.validate
  let strategy ← FuzzyInference.typeOne config
  .ok (ofEvaluator strategy.evaluator config.predictorWindow.toNat)

/-- The service of a configuration with footprints of uncertainty. -/
def typeTwo (config : FuzzyConfig α (Footprint α)) : Except (ConfigError α) (Service α) := do
  config.validate
  let strategy ← FuzzyInference.typeTwo config
  .ok (ofEvaluator strategy.evaluator config.predictorWindow.toNat)

/-- Binds a radio link to a terminal.  A terminal keeps one link, so an older
one is dropped; a terminal that held the link before is forgotten. -/
def serve (service : Service α) (time : Instant) (ue : UeId) (cell : CellId) (rnti : Rnti) :
    Service α :=
  let kept := service.bindings.filter fun link binding => link == rnti || binding.ue != ue
  let store :=
    match kept.get? rnti with
    | none => service.store
    | some previous => if previous.ue = ue then service.store else service.store.remove previous.ue
  { service with
    bindings := kept.insert rnti ⟨ue, cell, time⟩
    store := store.change ue fun state => state.setServing cell time }

/-- Stores a result for a neighbour of the terminal behind a radio link. -/
def neighbour (service : Service α) (time : Instant) (rnti : Rnti) (cell : CellId)
    (rsrp rsrq : Level) : Service α × List (Warning α) :=
  match service.bindings.get? rnti with
  | none => (service, [.unknownRnti .neighbourUpdate rnti])
  | some binding =>
    ({ service with store := service.store.update binding.ue cell rsrp rsrq time }, [])

/-- Looks for a target for the terminal behind a radio link. -/
def evaluate (service : Service α) (time : Instant) (rnti : Rnti) (rsrq : Level) :
    ServiceStep (Service α) (Warning α) :=
  match service.bindings.get? rnti with
  | none => ⟨service, some .none, [.unknownRnti .evaluation rnti]⟩
  | some binding =>
    let selection :=
      service.evaluator.selectTarget (service.store.stateOf binding.ue) time rsrq
    let target :=
      match selection.choice with
      | some (cell, _) => cell
      | none => .none
    ⟨{ service with store := service.store.put binding.ue selection.state }, some target,
      selection.warnings⟩

/-- Carries out a call. -/
def handle (service : Service α) : ServiceCall → ServiceStep (Service α) (Warning α)
  | .serve time ue cell rnti => ⟨service.serve time ue cell rnti, none, []⟩
  | .neighbour time rnti cell rsrp rsrq =>
    let (after, warnings) := service.neighbour time rnti cell rsrp rsrq
    ⟨after, none, warnings⟩
  | .evaluate time rnti _ rsrq => service.evaluate time rnti rsrq

instance : InferenceService (Service α) (Warning α) where
  handle := handle

/-- The terminal behind a radio link. -/
def ueOf? (service : Service α) (rnti : Rnti) : Option UeId :=
  (service.bindings.get? rnti).map Binding.ue

/-- The serving cell of the terminal behind a radio link. -/
def servingCell? (service : Service α) (rnti : Rnti) : Option CellId :=
  (service.bindings.get? rnti).map Binding.servingCell

end Service

end Handover
