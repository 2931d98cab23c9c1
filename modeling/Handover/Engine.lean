import Handover.Dispatch
import Handover.Strategy.Choice

/-!
# The engine

The engine serves all terminals of a host.  The host passes on measurement
reports and tells of connections and of the outcomes of handovers; the engine
answers with decisions and asks the host to start handovers.  A terminal is
known from the first report that says something of it until it is removed.

Every operation is a step from an engine to an engine with an answer, warnings
and calls to the host; a `Request` is an operation as data, and `run` carries
out a list of them.
-/

namespace Handover

open Strategy

/-- The engine. -/
structure Engine (α : Type) where
  /-- Evaluates reports. -/
  strategy : HandoverStrategy α
  /-- The registered events. -/
  configurator : Configurator
  /-- What is known of the terminals. -/
  store : Store
  /-- What was dispatched. -/
  stats : DispatchStats

namespace Engine

variable {α : Type} [Scalar α]

/-- Result of starting an engine: the engine, and the calls that its host
received. -/
structure Start (α : Type) where
  /-- The engine, or why there is none. -/
  result : Except (ConfigError α) (Engine α)
  /-- Calls to the host. -/
  calls : List HostCall

/-- The engine of a configuration, with the events it needs. -/
def build (config : EngineConfig α) : Except (ConfigError α) (Engine α) := do
  config.validate
  let interval ← config.reportInterval
  let strategy ← HandoverStrategy.ofConfig config.algorithm
  let registration := strategy.register .empty interval
  registration.result
  .ok
    { strategy := registration.strategy
      configurator := registration.configurator
      store := .empty strategy.historyLength
      stats := .zero }

/-- The calls that make an engine's events known to its host. -/
def subscriptions (engine : Engine α) : List HostCall :=
  engine.configurator.events.map fun (id, event) => .subscribe id event

/-- Starts an engine.  The host hears of events only if nothing is wrong with
the configuration. -/
def start (config : EngineConfig α) : Start α :=
  match build config with
  | .error error => ⟨.error error, []⟩
  | .ok engine => ⟨.ok engine, engine.subscriptions⟩

/-- The engine after an operation, the answer, the warnings and the calls to
the host. -/
structure Step (α ρ : Type) where
  /-- Engine afterwards. -/
  engine : Engine α
  /-- The answer. -/
  answer : ρ
  /-- Warnings, in order. -/
  warnings : List (Warning α)
  /-- Calls to the host, in order. -/
  calls : List HostCall

/-- Evaluates a report without dispatching.  A report with a problem is warned
of, and nothing is decided. -/
def evaluate (engine : Engine α) (ue : UeId) (id : MeasId) (report : Report) :
    Step α Decision :=
  let evaluation := engine.strategy.evaluate ue id report engine.store
  let after := { engine with store := evaluation.store }
  match evaluation.answer with
  | .ok decision => ⟨after, decision, evaluation.warnings, []⟩
  | .error error => ⟨after, .abstain ue, evaluation.warnings ++ [.report ue error], []⟩

/-- Offers a decision to the dispatcher. -/
def offer (engine : Engine α) (decision : Decision) : Step α TriggerResult :=
  if decision.isHandover then
    let (dispatch, calls) :=
      Dispatch.offer engine.stats (engine.store.stateOf decision.ue) decision
    ⟨{ engine with
        stats := dispatch.stats
        store := engine.store.put decision.ue dispatch.state },
      dispatch.answer, [], calls⟩
  else
    ⟨engine, .abstained, [], []⟩

/-- Evaluates a report and dispatches the decision. -/
def report (engine : Engine α) (ue : UeId) (id : MeasId) (report : Report) :
    Step α TriggerResult :=
  let first := engine.evaluate ue id report
  let second := first.engine.offer first.answer
  ⟨second.engine, second.answer, first.warnings ++ second.warnings, first.calls ++ second.calls⟩

/-- Takes note of the outcome of a handover without changing the serving cell.
The answer tells whether a handover was outstanding; of an unknown terminal
there is none. -/
def acknowledge (engine : Engine α) (ue : UeId) (outcome : HandoverOutcome) : Step α Bool :=
  match engine.store.state? ue with
  | none => ⟨engine, false, [], []⟩
  | some state =>
    let (dispatch, warnings) := Dispatch.acknowledge engine.stats state outcome
    ⟨{ engine with stats := dispatch.stats, store := engine.store.put ue dispatch.state },
      dispatch.answer, warnings, []⟩

/-- The terminal is connected to a cell.  A handover still outstanding from
before is dropped. -/
def connect (engine : Engine α) (ue : UeId) (cell : CellId) (time : Instant) : Step α Unit :=
  let dispatch := Dispatch.release engine.stats (engine.store.stateOf ue)
  ⟨{ engine with
      stats := dispatch.stats
      store := engine.store.put ue (dispatch.state.setServing cell time) },
    (), [], []⟩

/-- Takes note of the outcome of a handover.  If it was outstanding and has
completed, its target is the new serving cell. -/
def conclude (engine : Engine α) (ue : UeId) (outcome : HandoverOutcome) (time : Instant) :
    Step α Unit :=
  match engine.store.state? ue with
  | none => ⟨engine, (), [], []⟩
  | some state =>
    let (dispatch, warnings) := Dispatch.acknowledge engine.stats state outcome
    let settled :=
      match dispatch.answer, outcome, state.pendingTarget with
      | true, .completed, some target => dispatch.state.setServing target time
      | _, _, _ => dispatch.state
    ⟨{ engine with stats := dispatch.stats, store := engine.store.put ue settled },
      (), warnings, []⟩

/-- Forgets a terminal that has left the host. -/
def remove (engine : Engine α) (ue : UeId) : Step α Unit :=
  ⟨{ engine with store := engine.store.remove ue }, (), [], []⟩

/-- An operation on the engine. -/
inductive Request where
  /-- Evaluate a report and dispatch the decision. -/
  | report (ue : UeId) (id : MeasId) (report : Report)
  /-- Evaluate a report only. -/
  | evaluate (ue : UeId) (id : MeasId) (report : Report)
  /-- Dispatch a decision. -/
  | offer (decision : Decision)
  /-- Take note of an outcome without changing the serving cell. -/
  | acknowledge (ue : UeId) (outcome : HandoverOutcome)
  /-- The terminal is connected to a cell. -/
  | connect (ue : UeId) (cell : CellId) (time : Instant)
  /-- Take note of an outcome. -/
  | conclude (ue : UeId) (outcome : HandoverOutcome) (time : Instant)
  /-- Forget the terminal. -/
  | remove (ue : UeId)
deriving DecidableEq, Repr

/-- What an operation answers. -/
inductive Answer where
  /-- What became of a report or a decision. -/
  | trigger (result : TriggerResult)
  /-- A decision. -/
  | decision (decision : Decision)
  /-- Whether a handover was outstanding. -/
  | outstanding (answer : Bool)
  /-- Nothing. -/
  | none
deriving DecidableEq, Repr

namespace Request

/-- The terminal that an operation is about. -/
def ue : Request → UeId
  | report ue _ _ => ue
  | evaluate ue _ _ => ue
  | offer decision => decision.ue
  | acknowledge ue _ => ue
  | connect ue _ _ => ue
  | conclude ue _ _ => ue
  | remove ue => ue

end Request

/-- A step with its answer changed. -/
def Step.map {ρ τ : Type} (f : ρ → τ) (step : Step α ρ) : Step α τ :=
  ⟨step.engine, f step.answer, step.warnings, step.calls⟩

/-- Carries out an operation. -/
def handle (engine : Engine α) : Request → Step α Answer
  | .report ue id report => (engine.report ue id report).map .trigger
  | .evaluate ue id report => (engine.evaluate ue id report).map .decision
  | .offer decision => (engine.offer decision).map .trigger
  | .acknowledge ue outcome => (engine.acknowledge ue outcome).map .outstanding
  | .connect ue cell time => (engine.connect ue cell time).map fun _ => .none
  | .conclude ue outcome time => (engine.conclude ue outcome time).map fun _ => .none
  | .remove ue => (engine.remove ue).map fun _ => .none

/-- Carries out operations in order and lists every step. -/
def steps (engine : Engine α) : List Request → List (Step α Answer)
  | [] => []
  | request :: rest =>
    let step := engine.handle request
    step :: step.engine.steps rest

/-- The engine after operations in order. -/
def run (engine : Engine α) (requests : List Request) : Engine α :=
  requests.foldl (fun current request => (current.handle request).engine) engine

end Engine

end Handover
