import Handover.Ue.Neighbour

/-!
# State of a terminal

Everything that the engine keeps for one terminal: what it knows of the
neighbours and of the serving cell, and the handover that is under way.
-/

namespace Handover

open Trend

/-- What is kept for a terminal. -/
structure UeState where
  /-- The terminal. -/
  ue : UeId
  /-- Known neighbours. -/
  neighbours : Table CellId NeighbourRecord
  /-- A handover was triggered and its outcome is not known yet. -/
  outstanding : Bool
  /-- Target of the outstanding handover. -/
  pendingTarget : Option CellId
  /-- Cell that serves the terminal. -/
  servingCell : Option CellId
  /-- Since when it does. -/
  servingSince : Option Instant
  /-- Recent quality samples of the serving cell. -/
  servingHistory : History
  /-- Samples kept per history. -/
  historyLength : Nat

namespace UeState

/-- A terminal of which nothing is known.  As for `History.empty`, any history length has
room. -/
def fresh (ue : UeId) (historyLength : Nat) : UeState where
  ue := ue
  neighbours := .empty
  outstanding := false
  pendingTarget := none
  servingCell := none
  servingSince := none
  servingHistory := .empty historyLength
  historyLength := historyLength

/-- The record of a neighbour, a new one if there is none. -/
def recordOf (state : UeState) (cell : CellId) (rsrp rsrq : Level) (time : Instant) :
    NeighbourRecord :=
  (state.neighbours.get? cell).getD
    { cell := cell, rsrp := rsrp, rsrq := rsrq, lastUpdate := time,
      history := .empty state.historyLength }

/-- Stores a result for a neighbour and adds its quality to the history. -/
def updateNeighbour (state : UeState) (cell : CellId) (rsrp rsrq : Level) (time : Instant) :
    UeState :=
  let record := (state.recordOf cell rsrp rsrq time).update rsrp rsrq time
  { state with neighbours := state.neighbours.insert cell record }

/-- All records, by ascending cell number. -/
def snapshot (state : UeState) : List NeighbourRecord :=
  state.neighbours.values

/-- The record of best quality that satisfies a test, the lowest cell number
winning ties. -/
def best? (state : UeState) (test : NeighbourRecord → Bool) : Option NeighbourRecord :=
  NeighbourRecord.best? test state.snapshot

/-- Forgets the history of a neighbour; its record stays. -/
def resetNeighbourHistory (state : UeState) (cell : CellId) : UeState :=
  { state with neighbours := state.neighbours.modify cell .resetHistory }

/-- A new serving cell: its history starts anew, and so does the one that it had
as a neighbour. -/
def setServing (state : UeState) (cell : CellId) (since : Instant) : UeState :=
  resetNeighbourHistory
    { state with
      servingCell := some cell
      servingSince := some since
      servingHistory := state.servingHistory.clear }
    cell

end UeState

end Handover
