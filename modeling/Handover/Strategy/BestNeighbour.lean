import Handover.Config.Basic
import Handover.Strategy.Basic

/-!
# Handover to the best neighbour

The terminal reports once a neighbour has been better than the serving cell by
a margin for some time, so the condition has held when the report arrives.  All
that is left is to pick the neighbour of highest quality, the first one winning
ties.
-/

namespace Handover.Strategy

/-- The strategy on the A3 event. -/
structure BestNeighbour where
  /-- Margin of the event. -/
  hysteresis : Hysteresis
  /-- How long the condition has to hold. -/
  timeToTrigger : TimeToTrigger
  /-- Identity of the event, once registered. -/
  event : Option MeasId
deriving DecidableEq, Repr

namespace BestNeighbour

variable {α : Type} [Scalar α]

/-- The strategy with the given parameters. -/
def ofParameters (hysteresisDecibels : α) (timeToTriggerMillis : UInt32) :
    Except (ConfigError α) BestNeighbour := do
  let hysteresis ← Hysteresis.ofDecibels hysteresisDecibels
  let timeToTrigger ← TimeToTrigger.ofMillis timeToTriggerMillis
  .ok ⟨hysteresis, timeToTrigger, none⟩

/-- Registers the event. -/
def register (strategy : BestNeighbour) (configurator : Configurator)
    (interval : ReportInterval) : Registration α BestNeighbour :=
  registerOne strategy configurator
    ((MeasurementEvent.neighbourBetter strategy.hysteresis strategy.timeToTrigger).every interval)
    fun noted id => { noted with event := some id }

/-- The better of an earlier choice and a result.  Only a quality above zero of
another cell than the serving one counts, and a later one has to be strictly
better. -/
def prefer (serving : Option CellId) (choice : Option (CellId × Level))
    (result : NeighbourResult) : Option (CellId × Level) :=
  match result.rsrq with
  | none => choice
  | some rsrq =>
    let best := match choice with
      | none => 0
      | some (_, level) => level
    if some result.cell ≠ serving ∧ best < rsrq then some (result.cell, rsrq) else choice

/-- The warning for a result without quality. -/
def warning? (ue : UeId) (result : NeighbourResult) : Option (Warning α) :=
  match result.rsrq with
  | none => some (.report ue (.incomplete result.cell .rsrq))
  | some _ => none

/-- Evaluates a report. -/
def evaluate (strategy : BestNeighbour) (ue : UeId) (id : MeasId) (report : Report)
    (store : Store) : Evaluation α :=
  if strategy.event ≠ some id then ⟨store, .error (.unknownEvent id), []⟩
  else if report.neighbours.isEmpty then ⟨store, .error (.noNeighbours id), []⟩
  else
    let serving := (store.state? ue).bind UeState.servingCell
    let choice := report.neighbours.foldl (prefer serving) none
    ⟨store, .ok ⟨ue, choice.map Prod.fst⟩, report.neighbours.filterMap (warning? ue)⟩

end BestNeighbour

end Handover.Strategy
