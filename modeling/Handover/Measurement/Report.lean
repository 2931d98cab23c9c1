import Handover.Measurement.Event
import Handover.Time

/-!
# Reports and decisions

A report carries the quality of the serving cell and results for neighbours, in
which either quantity may be missing.  Evaluating a report ends in a decision:
a target cell, or none.
-/

namespace Handover

/-- Result for one neighbour in a report. -/
structure NeighbourResult where
  /-- The neighbour. -/
  cell : CellId
  /-- Received power, if reported. -/
  rsrp : Option Level
  /-- Received quality, if reported. -/
  rsrq : Option Level
deriving DecidableEq, Repr

/-- A measurement report. -/
structure Report where
  /-- When it was delivered. -/
  time : Instant
  /-- Received power of the serving cell. -/
  servingRsrp : Level
  /-- Received quality of the serving cell. -/
  servingRsrq : Level
  /-- Results for neighbours. -/
  neighbours : List NeighbourResult
deriving DecidableEq, Repr

/-- What is wrong with a report. -/
inductive ReportError where
  /-- It is tagged with an event that was never registered. -/
  | unknownEvent (id : MeasId)
  /-- A neighbour lacks a quantity. -/
  | incomplete (cell : CellId) (quantity : Quantity)
  /-- The event needs results for neighbours, and there are none. -/
  | noNeighbours (id : MeasId)
deriving DecidableEq, Repr

/-- Outcome of evaluating a report. -/
structure Decision where
  /-- The terminal. -/
  ue : UeId
  /-- Where to hand it over, if anywhere. -/
  target : Option CellId
deriving DecidableEq, Repr

namespace ReportError

/-- Text of a problem. -/
def message : ReportError → String
  | unknownEvent id => "Ignoring report for unknown measId " ++ id.text
  | incomplete cell quantity =>
    "Measurement incomplete: " ++ cell.text ++ " has no " ++ quantity.text ++ " result"
  | noNeighbours id =>
    "Event for measId " ++ id.text ++
      " received without measurement results from neighbouring cells"

end ReportError

namespace NeighbourResult

/-- Power and quality, or which of them is missing first. -/
def requireBoth (result : NeighbourResult) : Except ReportError (Level × Level) :=
  match result.rsrp, result.rsrq with
  | none, _ => .error (.incomplete result.cell .rsrp)
  | some _, none => .error (.incomplete result.cell .rsrq)
  | some rsrp, some rsrq => .ok (rsrp, rsrq)

end NeighbourResult

namespace Decision

/-- No handover. -/
def abstain (ue : UeId) : Decision :=
  ⟨ue, none⟩

/-- A handover to a cell. -/
def handover (ue : UeId) (target : CellId) : Decision :=
  ⟨ue, some target⟩

/-- The decision names a target. -/
def isHandover (decision : Decision) : Bool :=
  decision.target.isSome

end Decision

end Handover
