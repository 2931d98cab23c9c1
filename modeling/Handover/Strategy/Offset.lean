import Handover.Strategy.Basic

/-!
# Handover to a neighbour better by an offset

Discovery reports (A4) keep the store current.  A report of a poor serving cell
(A2) compares the best stored neighbour with it and hands over if the neighbour
is better by an offset.  The comparison never waits for fresher results.
-/

namespace Handover.Strategy

/-- The strategy on the A2 and A4 events. -/
structure Offset where
  /-- Quality of the serving cell below which it is poor. -/
  servingThreshold : Level
  /-- Least lead of a neighbour over the serving cell. -/
  neighbourOffset : Level
  /-- Identity of the event for a poor serving cell, once registered. -/
  servingEvent : Option MeasId
  /-- Identity of the discovery event, once registered. -/
  discoveryEvent : Option MeasId
deriving DecidableEq, Repr

namespace Offset

variable {α : Type}

/-- The strategy with the given parameters. -/
def ofParameters (servingThreshold neighbourOffset : Level) : Offset :=
  ⟨servingThreshold, neighbourOffset, none, none⟩

/-- Registers the event for a poor serving cell and then the discovery event,
which any detected neighbour fulfils. -/
def register (strategy : Offset) (configurator : Configurator) (interval : ReportInterval) :
    Registration α Offset :=
  (registerOne strategy configurator
    ((MeasurementEvent.servingBelow strategy.servingThreshold).every interval)
    fun noted id => { noted with servingEvent := some id }).andThen
    fun registered events =>
      registerOne registered events ((MeasurementEvent.neighbourAbove 0).every interval)
        fun noted id => { noted with discoveryEvent := some id }

/-- The record may be handed over to: it has a quality and is not of the
serving cell. -/
def isCandidate (serving : Option CellId) (record : NeighbourRecord) : Bool :=
  0 < record.rsrq && some record.cell != serving

/-- The target for a serving cell of the given quality, if there is one. -/
def target? (strategy : Offset) (ue : UeId) (servingRsrq : Level) (store : Store) :
    Option CellId :=
  let serving := (store.state? ue).bind UeState.servingCell
  match store.best? ue (isCandidate serving) with
  | none => none
  | some best =>
    let lead : Int := (best.rsrq.toNat : Int) - servingRsrq.toNat
    if (strategy.neighbourOffset.toNat : Int) ≤ lead then some best.cell else none

/-- Evaluates a report. -/
def evaluate (strategy : Offset) (ue : UeId) (id : MeasId) (report : Report) (store : Store) :
    Evaluation α :=
  if strategy.discoveryEvent = some id then discover ue id report store
  else if strategy.servingEvent ≠ some id then ⟨store, .error (.unknownEvent id), []⟩
  else
    whenConsistent ue report.servingRsrq strategy.servingThreshold store
      ⟨store, .ok ⟨ue, strategy.target? ue report.servingRsrq store⟩, []⟩

end Offset

end Handover.Strategy
