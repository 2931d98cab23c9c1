import Handover.Identity
import Handover.Measurement.Hysteresis
import Handover.Measurement.Timing

/-!
# Measurement events

The conditions under which a terminal is asked to report: the serving cell
falls below a threshold (A2), a neighbour is better than the serving cell by an
offset (A3), or a neighbour rises above a threshold (A4).
-/

namespace Handover

/-- Kind of a measurement event. -/
inductive EventKind where
  /-- The serving cell becomes worse than the threshold. -/
  | a2
  /-- A neighbour becomes better than the serving cell by the offset. -/
  | a3
  /-- A neighbour becomes better than the threshold. -/
  | a4
deriving DecidableEq, Repr

/-- A measurement event that the engine wants reported. -/
structure MeasurementEvent where
  /-- What is compared. -/
  quantity : Quantity
  /-- The condition. -/
  kind : EventKind
  /-- Threshold of A2 and A4. -/
  threshold : Level
  /-- Offset of A3 in half decibels. -/
  offset : Int8
  /-- Margin of the condition. -/
  hysteresis : Hysteresis
  /-- How long the condition has to hold. -/
  timeToTrigger : TimeToTrigger
  /-- How often the report is repeated. -/
  reportInterval : ReportInterval
deriving DecidableEq, Repr

namespace EventKind

/-- Text of a kind. -/
def text : EventKind → String
  | a2 => "A2"
  | a3 => "A3"
  | a4 => "A4"

end EventKind

namespace MeasurementEvent

/-- The serving quality falls below a threshold. -/
def servingBelow (threshold : Level) : MeasurementEvent where
  quantity := .rsrq
  kind := .a2
  threshold := threshold
  offset := 0
  hysteresis := .zero
  timeToTrigger := .zero
  reportInterval := .shortest

/-- The quality of a neighbour exceeds that of the serving cell by a margin for
some time. -/
def neighbourBetter (hysteresis : Hysteresis) (timeToTrigger : TimeToTrigger) :
    MeasurementEvent where
  quantity := .rsrq
  kind := .a3
  threshold := 0
  offset := 0
  hysteresis := hysteresis
  timeToTrigger := timeToTrigger
  reportInterval := .shortest

/-- The quality of a neighbour rises above a threshold. -/
def neighbourAbove (threshold : Level) : MeasurementEvent where
  quantity := .rsrq
  kind := .a4
  threshold := threshold
  offset := 0
  hysteresis := .zero
  timeToTrigger := .zero
  reportInterval := .shortest

/-- The same event with another report interval. -/
def every (event : MeasurementEvent) (interval : ReportInterval) : MeasurementEvent :=
  { event with reportInterval := interval }

/-- Checks the ranges that the types do not ensure: the threshold of A2 and A4,
then the offset. -/
def validate {α : Type} (event : MeasurementEvent) : Except (ConfigError α) Unit :=
  if event.kind ≠ .a3 ∧ event.quantity.greatest < event.threshold then
    .error (.threshold (.event event.quantity) event.threshold)
  else if event.offset < -30 ∨ 30 < event.offset then
    .error (.eventOffset event.offset)
  else
    .ok ()

end MeasurementEvent

end Handover
