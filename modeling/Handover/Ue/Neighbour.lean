import Handover.Measurement.Report
import Handover.Trend.History

/-!
# Neighbour records

The last known quality of a neighbour as seen by one terminal, with the recent
history of its quality, and the choice of the best record.
-/

namespace Handover

open Trend

/-- Last known quality of a neighbour. -/
structure NeighbourRecord where
  /-- The neighbour. -/
  cell : CellId
  /-- Received power. -/
  rsrp : Level
  /-- Received quality. -/
  rsrq : Level
  /-- When it was last reported. -/
  lastUpdate : Instant
  /-- Recent quality samples. -/
  history : History
deriving DecidableEq, Repr

namespace NeighbourRecord

/-- The record after a new result. -/
def update (record : NeighbourRecord) (rsrp rsrq : Level) (time : Instant) :
    NeighbourRecord where
  cell := record.cell
  rsrp := rsrp
  rsrq := rsrq
  lastUpdate := time
  history := record.history.push rsrq

/-- The record without its samples. -/
def resetHistory (record : NeighbourRecord) : NeighbourRecord :=
  { record with history := record.history.clear }

/-- The first record has better quality, or the same and a lower cell
number. -/
def Outranks (first second : NeighbourRecord) : Prop :=
  second.rsrq < first.rsrq ∨
    (first.rsrq = second.rsrq ∧ first.cell.value < second.cell.value)

instance (first second : NeighbourRecord) : Decidable (first.Outranks second) :=
  inferInstanceAs (Decidable (_ ∨ _))

/-- The better of a record and an earlier choice. -/
def better (choice : Option NeighbourRecord) (record : NeighbourRecord) :
    Option NeighbourRecord :=
  match choice with
  | none => some record
  | some best => if record.Outranks best then some record else some best

/-- Best of the records that satisfy a test, visited in the given order. -/
def best? (test : NeighbourRecord → Bool) (records : List NeighbourRecord) :
    Option NeighbourRecord :=
  (records.filter test).foldl better none

end NeighbourRecord

end Handover
