import Handover.Proofs.Engine.Log
import Handover.Proofs.Strategy.Target

/-!
# Handovers that reports start

A report starts a handover only to a cell that was observed with a quality other
than zero, and never to the cell that serves the terminal.
-/

namespace Handover.Engine

variable {α : Type} [Scalar α]

/-- A started engine runs the configured algorithm. -/
theorem observes_of_start {config : EngineConfig α} {engine : Engine α}
    (started : (start config).result = .ok engine) :
    engine.strategy.Observes = config.algorithm.Observes := by
  rcases start_eq_ok started with ⟨interval, strategy, _, chosen, _, rfl⟩
  exact HandoverStrategy.observes_of_ofConfig chosen _ _

/-- In an engine after any run, records are stored under their own cells. -/
theorem Fresh.filed {engine : Engine α} (fresh : engine.Fresh) (requests : List Request)
    (ue : UeId) : ((engine.run requests).store.stateOf ue).Filed :=
  (fresh.reflects requests ue).filed

theorem evaluate_target {engine : Engine α} {ue : UeId}
    (filed : (engine.store.stateOf ue).Filed) {id : MeasId} {report : Report} {cell : CellId}
    (named : (engine.evaluate ue id report).answer.target = some cell) :
    some cell ≠ (engine.store.stateOf ue).servingCell ∧
      engine.strategy.Observes (engine.store.stateOf ue) report cell := by
  have targets := engine.strategy.evaluate_targets filed id report
  simp only [evaluate] at named
  split at named
  · next decision decided => exact targets decision cell decided named
  · cases named

/-- A handover that a report starts is one of its terminal to the target that it
evaluates to. -/
theorem report_trigger {engine : Engine α} {ue other : UeId} {id : MeasId} {report : Report}
    {cell : CellId} (called : .trigger other cell ∈ (engine.handle (.report ue id report)).calls) :
    other = ue ∧ (engine.evaluate ue id report).answer.target = some cell := by
  rw [handle_calls] at called
  rcases Progress.trigger_mem_calls called with ⟨same, triggered⟩
  refine ⟨same.symm, ?_⟩
  rw [progress] at triggered
  cases target : (engine.evaluate ue id report).answer.target with
  | none =>
      rw [target] at triggered
      cases triggered
  | some chosen =>
      rw [target, Progress.ofOffer] at triggered
      split at triggered
      · cases triggered
      · cases triggered
        rfl

end Handover.Engine
