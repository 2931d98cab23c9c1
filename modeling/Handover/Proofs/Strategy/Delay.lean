import Handover.Proofs.Strategy.Target
import Handover.Proofs.Ue.Delay

/-!
# Strategies only see ages

A report that is told later to a store with later times is evaluated to the same
decision with the same warnings.  What is stored then has the time of the report.
-/

namespace Handover

open Inference Strategy UeState

/-- The report told later. -/
def Report.delay (span : Nat) (report : Report) : Report :=
  { report with time := report.time.plus span }

/-- The evaluation with the times in its store moved. -/
def Strategy.Evaluation.delay {α : Type} (span : Nat) (evaluation : Evaluation α) :
    Evaluation α :=
  { evaluation with store := evaluation.store.delay span }

namespace Strategy

variable {α : Type} (span : Nat) (ue : UeId) (id : MeasId) (report : Report) (store : Store)

/-! ## Moving the times -/

theorem cacheResults_delay (time : Instant) (results : List NeighbourResult) :
    cacheResults (α := α) ue (time.plus span) results (store.delay span) =
      ((cacheResults (α := α) ue time results store).1.delay span,
        (cacheResults ue time results store).2) := by
  induction results generalizing store with
  | nil => rfl
  | cons result rest ih =>
      rw [cacheResults, cacheResults]
      cases result.requireBoth with
      | ok both =>
          dsimp only
          rw [Store.update_delay]
          exact ih _
      | error error =>
          dsimp only
          rw [ih]

theorem discover_delay :
    discover (α := α) ue id (report.delay span) (store.delay span) =
      (discover ue id report store).delay span := by
  rw [discover, discover, apply_ite (Evaluation.delay span)]
  refine if_congr Iff.rfl rfl ?_
  simp only [Report.delay, cacheResults_delay]
  rfl

theorem whenConsistent_delay (servingRsrq threshold : Level) (evaluation : Evaluation α) :
    whenConsistent ue servingRsrq threshold (store.delay span) (evaluation.delay span) =
      (whenConsistent ue servingRsrq threshold store evaluation).delay span := by
  rw [whenConsistent, whenConsistent, apply_ite (Evaluation.delay span)]
  rfl

theorem bind_servingCell_delay :
    ((store.delay span).state? ue).bind UeState.servingCell =
      (store.state? ue).bind UeState.servingCell := by
  rw [bind_servingCell, bind_servingCell, Store.stateOf_delay]
  rfl

theorem BestNeighbour.evaluate_delay (strategy : BestNeighbour) :
    strategy.evaluate (α := α) ue id (report.delay span) (store.delay span) =
      (strategy.evaluate ue id report store).delay span := by
  rw [evaluate, evaluate, apply_ite (Evaluation.delay span), apply_ite (Evaluation.delay span),
    bind_servingCell_delay]
  rfl

theorem Offset.target?_delay (strategy : Offset) (servingRsrq : Level) :
    strategy.target? ue servingRsrq (store.delay span) =
      strategy.target? ue servingRsrq store := by
  simp only [target?, bind_servingCell_delay]
  rw [Store.best?_delay span store ue fun record => rfl]
  cases store.best? ue (isCandidate ((store.state? ue).bind UeState.servingCell)) <;> rfl

theorem Offset.evaluate_delay (strategy : Offset) :
    strategy.evaluate (α := α) ue id (report.delay span) (store.delay span) =
      (strategy.evaluate ue id report store).delay span := by
  rw [evaluate, evaluate, apply_ite (Evaluation.delay span), apply_ite (Evaluation.delay span),
    discover_delay, target?_delay, ← whenConsistent_delay]
  rfl

theorem FuzzyInference.evaluate_delay [Scalar α] (strategy : FuzzyInference α)
    (room : report.time.HasRoom span) :
    strategy.evaluate ue id (report.delay span) (store.delay span) =
      (strategy.evaluate ue id report store).delay span := by
  have inferred : strategy.infer ue (report.delay span) (store.delay span) =
      (strategy.infer ue report store).delay span := by
    simp only [infer, Report.delay, Store.stateOf_delay]
    rw [strategy.evaluator.selectTarget_delay room]
    simp only [Selection.delay, Store.put_delay]
    rfl
  rw [evaluate, evaluate, apply_ite (Evaluation.delay span), apply_ite (Evaluation.delay span),
    discover_delay, inferred, ← whenConsistent_delay]
  rfl

/-! ## Times that are kept -/

variable {ue id report store} {known : Instant → Prop}

theorem cacheResults_dated (dated : store.Each (Dated known)) {time : Instant}
    (told : known time) (results : List NeighbourResult) :
    (cacheResults (α := α) ue time results store).1.Each (Dated known) := by
  induction results generalizing store with
  | nil => exact dated
  | cons result rest ih =>
      rw [cacheResults]
      split
      · exact ih (dated.put ((dated ue).updateNeighbour _ _ _ told))
      · exact ih dated

theorem discover_dated (dated : store.Each (Dated known)) (told : known report.time) :
    (discover (α := α) ue id report store).store.Each (Dated known) := by
  rw [discover]
  split
  · exact dated
  · exact cacheResults_dated dated told report.neighbours

theorem whenConsistent_dated (dated : store.Each (Dated known)) {evaluation : Evaluation α}
    (evaluated : evaluation.store.Each (Dated known)) (servingRsrq threshold : Level) :
    (whenConsistent ue servingRsrq threshold store evaluation).store.Each (Dated known) := by
  rw [whenConsistent]
  split
  · exact dated
  · exact evaluated

theorem FuzzyInference.evaluate_dated [Scalar α] (strategy : FuzzyInference α)
    (dated : store.Each (Dated known)) (told : known report.time) :
    (strategy.evaluate ue id report store).store.Each (Dated known) := by
  rw [evaluate]
  split
  · exact discover_dated dated told
  split
  · exact dated
  · refine whenConsistent_dated dated ?_ _ _
    exact dated.put ((dated ue).selectTarget strategy.evaluator _ _)

end Strategy

namespace HandoverStrategy

variable {α : Type} [Scalar α] (strategy : HandoverStrategy α) (ue : UeId) (id : MeasId)
  {report : Report}

theorem evaluate_delay {span : Nat} (room : report.time.HasRoom span) (store : Store) :
    strategy.evaluate ue id (report.delay span) (store.delay span) =
      (strategy.evaluate ue id report store).delay span := by
  cases strategy with
  | noOp => rfl
  | bestNeighbour part => exact part.evaluate_delay span ue id report store
  | offset part => exact part.evaluate_delay span ue id report store
  | typeOne part => exact part.evaluate_delay span ue id report store room
  | typeTwo part => exact part.evaluate_delay span ue id report store room

theorem evaluate_dated {known : Instant → Prop} {store : Store}
    (dated : store.Each (Dated known)) (told : known report.time) :
    (strategy.evaluate ue id report store).store.Each (Dated known) := by
  cases strategy with
  | noOp => exact dated
  | bestNeighbour part =>
      simp only [evaluate, BestNeighbour.evaluate]
      split
      · exact dated
      · split <;> exact dated
  | offset part =>
      simp only [evaluate, Offset.evaluate]
      split
      · exact discover_dated dated told
      split
      · exact dated
      · refine whenConsistent_dated dated ?_ _ _
        exact dated
  | typeOne part => exact part.evaluate_dated dated told
  | typeTwo part => exact part.evaluate_dated dated told

end HandoverStrategy

end Handover
