import Handover.Measurement.Configurator
import Handover.Ue.Store
import Handover.Warning

/-!
# Evaluating reports

What all strategies share: the result of evaluating a report, the attempt to
register events, the storing of neighbours from a discovery report, and the
check that a report of a poor serving cell does not contradict itself.
-/

namespace Handover.Strategy

/-- The store, the answer and the warnings after a report. -/
structure Evaluation (α : Type) where
  /-- Store afterwards. -/
  store : Store
  /-- The decision, or what is wrong with the report. -/
  answer : Except ReportError Decision
  /-- Warnings, in order. -/
  warnings : List (Warning α)

/-- What is left of a strategy `σ` and the registered events after an attempt to
register the events it needs. -/
structure Registration (α σ : Type) where
  /-- The strategy afterwards. -/
  strategy : σ
  /-- Registered events afterwards. -/
  configurator : Configurator
  /-- Whether the attempt succeeded. -/
  result : Except (ConfigError α) Unit

variable {α : Type}

/-- Registers one event and lets a strategy note its identity. -/
def registerOne {σ : Type} (strategy : σ) (configurator : Configurator)
    (event : MeasurementEvent) (note : σ → MeasId → σ) : Registration α σ :=
  match configurator.register event with
  | .error error => ⟨strategy, configurator, .error error⟩
  | .ok (id, registered) => ⟨note strategy id, registered, .ok ()⟩

/-- Continues a successful registration. -/
def Registration.andThen {σ : Type} (first : Registration α σ)
    (next : σ → Configurator → Registration α σ) : Registration α σ :=
  match first.result with
  | .error _ => first
  | .ok () => next first.strategy first.configurator

/-- Stores the complete results among the given ones and warns of the
others. -/
def cacheResults (ue : UeId) (time : Instant) :
    List NeighbourResult → Store → Store × List (Warning α)
  | [], store => (store, [])
  | result :: rest, store =>
    match result.requireBoth with
    | .ok (rsrp, rsrq) => cacheResults ue time rest (store.update ue result.cell rsrp rsrq time)
    | .error error =>
      let (final, warnings) := cacheResults ue time rest store
      (final, .report ue error :: warnings)

/-- Evaluates a discovery report: its complete results are stored, and nothing
is decided. -/
def discover (ue : UeId) (id : MeasId) (report : Report) (store : Store) : Evaluation α :=
  if report.neighbours.isEmpty then ⟨store, .error (.noNeighbours id), []⟩
  else
    let (final, warnings) := cacheResults ue report.time report.neighbours store
    ⟨final, .ok (.abstain ue), warnings⟩

/-- Evaluates a report of a poor serving cell unless its quality exceeds the
threshold that it was said to have fallen below. -/
def whenConsistent (ue : UeId) (servingRsrq threshold : Level) (store : Store)
    (evaluate : Evaluation α) : Evaluation α :=
  if threshold < servingRsrq then
    ⟨store, .ok (.abstain ue), [.inconsistent ue servingRsrq threshold]⟩
  else evaluate

end Handover.Strategy
