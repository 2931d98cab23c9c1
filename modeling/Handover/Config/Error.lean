import Handover.Fault
import Handover.Fuzzy.Error
import Handover.Measurement.Quantity

/-!
# Configuration faults

Everything that keeps the engine from starting.
-/

namespace Handover

open Fuzzy

/-- Whose threshold is out of range. -/
inductive ThresholdOwner where
  /-- A measurement event on a quantity. -/
  | event (quantity : Quantity)
  /-- The serving cell in the offset algorithm. -/
  | servingCell
  /-- The serving cell in the fuzzy algorithms. -/
  | serving
  /-- Neighbour discovery in the fuzzy algorithms. -/
  | discovery
deriving DecidableEq, Repr

/-- A fault of a configuration over the scalars `α`. -/
inductive ConfigError (α : Type) where
  /-- A threshold is outside the levels of its quantity. -/
  | threshold (owner : ThresholdOwner) (value : Level)
  /-- A hysteresis in decibels is out of range. -/
  | hysteresisDecibels (value : α)
  /-- A hysteresis in half decibels is out of range. -/
  | hysteresisElement (value : UInt8)
  /-- A time to trigger is not a standard one. -/
  | timeToTrigger (millis : UInt32)
  /-- A report interval is not a standard one. -/
  | reportInterval (millis : UInt32)
  /-- The offset of a neighbour over the serving cell is out of range. -/
  | neighbourOffset (value : Level)
  /-- The offset of an A3 event is out of range. -/
  | eventOffset (value : Int8)
  /-- The abstention threshold is not in `[0, 1]`. -/
  | abstentionThreshold (value : α)
  /-- The stale window is empty. -/
  | staleWindow
  /-- The predictor window is empty. -/
  | predictorWindow
  /-- All measurement identities are taken. -/
  | tooManyMeasurements
  /-- A rule base is malformed. -/
  | fuzzy (error : FuzzyError α)
  /-- The configuration file could not be read. -/
  | unreadable
  /-- The configuration document could not be understood. -/
  | malformed
deriving BEq, Repr

/-- Most measurement identities of a connection. -/
def measurementLimit : Nat :=
  32

namespace ThresholdOwner

/-- Text of a threshold that is out of range. -/
def message (value : Level) : ThresholdOwner → String
  | event quantity =>
    quantity.text ++ " threshold " ++ value.text ++ " outside [0, " ++
      quantity.greatest.text ++ "]"
  | servingCell => "serving cell threshold " ++ value.text ++ " outside RSRQ range [0, 34]"
  | serving => "serving threshold " ++ value.text ++ " outside RSRQ range [0, 34]"
  | discovery => "discovery threshold " ++ value.text ++ " outside RSRQ range [0, 34]"

end ThresholdOwner

namespace ConfigError

variable {α : Type} [DecimalText α]

/-- Text of a fault. -/
def message : ConfigError α → String
  | threshold owner value => "Invalid threshold: " ++ owner.message value
  | hysteresisDecibels value =>
    "Invalid hysteresis: " ++ DecimalText.text value ++ " dB must be in range [0.0, 15.0]"
  | hysteresisElement value =>
    "Invalid hysteresis: IE value " ++ toString value.toNat ++ " exceeds 30"
  | timeToTrigger millis => "Invalid time-to-trigger: " ++ toString millis.toNat ++ " ms"
  | reportInterval millis => "Invalid report interval: " ++ toString millis.toNat ++ " ms"
  | neighbourOffset value =>
    "Invalid offset: neighbour cell offset " ++ value.text ++ " outside [0, 34]"
  | eventOffset value =>
    "Invalid offset: a3-Offset " ++ toString value.toInt ++ " outside [-30, 30]"
  | abstentionThreshold value =>
    "Invalid abstention threshold: " ++ DecimalText.text value
  | staleWindow => "Invalid fuzzy parameter: stale_window_ms must be positive"
  | predictorWindow =>
    "Invalid fuzzy parameter: predictor_window must hold at least one sample"
  | tooManyMeasurements =>
    "Too many measurements: at most " ++ toString measurementLimit ++ " measurement identities"
  | fuzzy error => "Fuzzy rule base error: " ++ error.message
  | unreadable => "Failed to read configuration file"
  | malformed => "Failed to parse configuration"

/-- The fault of the surroundings that a configuration fault amounts to. -/
def toFault : ConfigError α → Fault
  | unreadable => .unreadable
  | malformed => .malformed
  | other => .configuration other.message

end ConfigError

end Handover
