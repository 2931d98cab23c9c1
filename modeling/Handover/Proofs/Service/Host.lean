import Handover.Proofs.Service.Binding
import Handover.Proofs.Strategy.Registration
import Mathlib.Logic.Function.Basic

/-!
# One host, two ways to be served

What happens at a host can be told to an engine, by terminal, or to the service,
by radio link.  An event becomes a request of the one and calls of the other.
The host knows which link each of its terminals has; the events that it may tell
of follow from that.
-/

namespace Handover

open Strategy

/-- A complete result for a neighbour. -/
structure Reading where
  /-- The neighbour. -/
  cell : CellId
  /-- Received power. -/
  rsrp : Level
  /-- Received quality. -/
  rsrq : Level
deriving DecidableEq, Repr

/-- The result as part of a report. -/
def Reading.result (reading : Reading) : NeighbourResult :=
  ⟨reading.cell, some reading.rsrp, some reading.rsrq⟩

/-- What happens at a host. -/
inductive HostEvent where
  /-- A terminal is connected to a cell over a radio link. -/
  | connect (ue : UeId) (cell : CellId) (time : Instant) (rnti : Rnti)
  /-- A terminal, which has a link, reports neighbours. -/
  | discover (ue : UeId) (rnti : Rnti) (time : Instant) (servingRsrp servingRsrq : Level)
    (readings : List Reading)
  /-- A terminal, which has a link, reports a poor serving cell. -/
  | assess (ue : UeId) (rnti : Rnti) (report : Report)
deriving DecidableEq, Repr

/-- The radio link that each terminal has. -/
abbrev Links :=
  UeId → Option Rnti

namespace HostEvent

/-- The event as a request of an engine that knows reports of a poor serving cell
and of neighbours by these identities. -/
def request (poor found : MeasId) : HostEvent → Engine.Request
  | connect ue cell time _ => .connect ue cell time
  | discover ue _ time servingRsrp servingRsrq readings =>
    .evaluate ue found ⟨time, servingRsrp, servingRsrq, readings.map Reading.result⟩
  | assess ue _ report => .evaluate ue poor report

/-- The event as calls of the service. -/
def calls : HostEvent → List ServiceCall
  | connect ue cell time rnti => [.serve time ue cell rnti]
  | discover _ rnti time _ _ readings =>
    readings.map fun reading => .neighbour time rnti reading.cell reading.rsrp reading.rsrq
  | assess _ rnti report => [.evaluate report.time rnti report.servingRsrp report.servingRsrq]

/-- The links after an event. -/
def after (links : Links) : HostEvent → Links
  | connect ue _ _ rnti => Function.update links ue (some rnti)
  | discover _ _ _ _ _ _ => links
  | assess _ _ _ => links

/-- The event can happen.  A link is given to one terminal at a time and used by
the terminal that has it; reported neighbours do not go by the reserved cell
number, and a serving cell is reported as poor only if its quality does not
exceed the threshold. -/
def Allowed (threshold : Level) (links : Links) : HostEvent → Prop
  | connect ue _ _ rnti => ∀ other, links other = some rnti → other = ue
  | discover ue rnti _ _ _ readings =>
    links ue = some rnti ∧ readings ≠ [] ∧ ∀ reading ∈ readings, reading.cell ≠ .none
  | assess ue rnti report => links ue = some rnti ∧ report.servingRsrq ≤ threshold

end HostEvent

/-- Events that can happen one after the other. -/
def Admissible (threshold : Level) : Links → List HostEvent → Prop
  | _, [] => True
  | links, event :: rest =>
    event.Allowed threshold links ∧ Admissible threshold (event.after links) rest

/-! ## What is stored -/

/-- The store with complete results for neighbours of a terminal. -/
def Store.record (ue : UeId) (time : Instant) (readings : List Reading) (store : Store) : Store :=
  readings.foldl
    (fun current reading => current.update ue reading.cell reading.rsrp reading.rsrq time) store

namespace Strategy

variable {α : Type}

theorem cacheResults_readings (ue : UeId) (time : Instant) (readings : List Reading)
    (store : Store) :
    cacheResults (α := α) ue time (readings.map Reading.result) store =
      (store.record ue time readings, []) := by
  induction readings generalizing store with
  | nil => rfl
  | cons reading rest ih => exact ih _

/-- A discovery report is stored as a whole if all its results are complete. -/
theorem FuzzyInference.discover_store [Scalar α] (strategy : FuzzyInference α) (ue : UeId)
    (time : Instant) (servingRsrp servingRsrq : Level) {readings : List Reading}
    (someReading : readings ≠ []) (store : Store) :
    (strategy.noted.evaluate ue ⟨2⟩
        ⟨time, servingRsrp, servingRsrq, readings.map Reading.result⟩ store).store =
      store.record ue time readings := by
  have nonempty : (readings.map Reading.result).isEmpty = false := by
    cases readings with
    | nil => exact absurd rfl someReading
    | cons reading rest => rfl
  have discovery : strategy.noted.discoveryEvent = some ⟨2⟩ := rfl
  rw [FuzzyInference.evaluate, if_pos discovery, discover, nonempty, cacheResults_readings]
  rfl

/-- A report of a poor serving cell that does not contradict itself runs the
evaluator. -/
theorem FuzzyInference.assess [Scalar α] (strategy : FuzzyInference α) (ue : UeId)
    {report : Report} (poor : report.servingRsrq ≤ strategy.servingThreshold) (store : Store) :
    strategy.noted.evaluate ue ⟨1⟩ report store = strategy.infer ue report store := by
  have discovery : strategy.noted.discoveryEvent ≠ some ⟨1⟩ := by
    change some (⟨2⟩ : MeasId) ≠ some ⟨1⟩
    decide
  have serving : ¬strategy.noted.servingEvent ≠ some ⟨1⟩ := not_not_intro rfl
  have consistent : ¬strategy.noted.servingThreshold < report.servingRsrq :=
    UInt8.not_lt.mpr poor
  rw [FuzzyInference.evaluate, if_neg discovery, if_neg serving, whenConsistent,
    if_neg consistent]
  rfl

end Strategy

namespace Engine

variable {α : Type} [Scalar α]

theorem evaluate_store (engine : Engine α) (ue : UeId) (id : MeasId) (report : Report) :
    (engine.evaluate ue id report).engine.store =
      (engine.strategy.evaluate ue id report engine.store).store := by
  simp only [evaluate]
  split <;> rfl

omit [Scalar α] in
/-- A terminal without an outstanding handover only gets a new serving cell. -/
theorem connect_store (engine : Engine α) {ue : UeId}
    (idle : (engine.store.stateOf ue).outstanding = false) (cell : CellId) (time : Instant) :
    (engine.connect ue cell time).engine.store =
      engine.store.change ue fun state => state.setServing cell time := by
  simp only [connect, Dispatch.release, idle]
  rfl

end Engine

namespace Service

variable {α : Type} [Scalar α]

/-- Results for the terminal behind a link are all stored. -/
theorem run_neighbours (service : Service α) {rnti : Rnti} {binding : Binding}
    (bound : service.bindings.get? rnti = some binding) (time : Instant)
    (readings : List Reading) :
    service.run (readings.map fun reading =>
        .neighbour time rnti reading.cell reading.rsrp reading.rsrq) =
      { service with store := service.store.record binding.ue time readings } := by
  induction readings generalizing service with
  | nil => rfl
  | cons reading rest ih =>
      rw [List.map_cons, run_cons]
      change (service.neighbour time rnti reading.cell reading.rsrp reading.rsrq).1.run _ = _
      rw [neighbour_of_bound service time bound]
      exact ih _ bound

end Service

end Handover
