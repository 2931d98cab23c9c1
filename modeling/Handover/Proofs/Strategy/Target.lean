import Handover.Proofs.Inference.Selection
import Handover.Proofs.Strategy.Registration
import Handover.Proofs.Ue.Store

/-!
# Targets of decisions

A strategy leaves the serving cell out in a place of its own: as it goes through
a report, in the test for records, or among the candidates of an evaluation.
Whichever it is, a target is another cell than the serving one, and it was
observed with a quality other than zero.
-/

namespace Handover

/-- A report holds a result for a cell with a quality other than zero. -/
def Report.Shows (report : Report) (cell : CellId) : Prop :=
  ∃ result ∈ report.neighbours, result.cell = cell ∧ ∃ rsrq, result.rsrq = some rsrq ∧ rsrq ≠ 0

/-- Where an algorithm has its targets from: for the best neighbour it is the
report itself, for the others what is known of the terminal. -/
def AlgorithmConfig.Observes {α : Type} (algorithm : AlgorithmConfig α) (state : UeState)
    (report : Report) (cell : CellId) : Prop :=
  match algorithm with
  | bestNeighbour _ _ => report.Shows cell
  | _ => state.Shows cell

open Inference Strategy

/-- Every target that an evaluation decides on is allowed. -/
def Strategy.Evaluation.Targets {α : Type} (evaluation : Evaluation α)
    (allowed : CellId → Prop) : Prop :=
  ∀ decision cell, evaluation.answer = .ok decision → decision.target = some cell → allowed cell

namespace Strategy

variable {α : Type} {ue : UeId} {id : MeasId} {report : Report} {store : Store}
  {allowed : CellId → Prop}

theorem targets_error (error : ReportError) (warnings : List (Warning α)) :
    Evaluation.Targets ⟨store, .error error, warnings⟩ allowed := by
  intro decision cell decided
  cases decided

theorem targets_ok {target : Option CellId} (warnings : List (Warning α))
    (chosen : ∀ cell, target = some cell → allowed cell) :
    Evaluation.Targets ⟨store, .ok ⟨ue, target⟩, warnings⟩ allowed := by
  intro decision cell decided named
  cases decided
  exact chosen cell named

theorem targets_abstain (warnings : List (Warning α)) :
    Evaluation.Targets ⟨store, .ok (.abstain ue), warnings⟩ allowed :=
  targets_ok warnings nofun

theorem discover_targets : (discover (α := α) ue id report store).Targets allowed := by
  unfold discover
  split
  · exact targets_error _ _
  · exact targets_abstain _

theorem whenConsistent_targets {evaluation : Evaluation α} (inner : evaluation.Targets allowed)
    (servingRsrq threshold : Level) :
    (whenConsistent ue servingRsrq threshold store evaluation).Targets allowed := by
  unfold whenConsistent
  split
  · exact targets_abstain _
  · exact inner

/-- The serving cell that a strategy looks up is the one in the state of the
terminal. -/
theorem bind_servingCell (store : Store) (ue : UeId) :
    (store.state? ue).bind UeState.servingCell = (store.stateOf ue).servingCell := by
  cases known : store.state? ue with
  | none => rw [Store.stateOf_of_unknown known, Option.bind_none, UeState.fresh]
  | some state => rw [Store.stateOf_of_state? known, Option.bind_some]

theorem BestNeighbour.evaluate_targets (strategy : BestNeighbour) :
    (strategy.evaluate (α := α) ue id report store).Targets fun cell =>
      some cell ≠ (store.stateOf ue).servingCell ∧ report.Shows cell := by
  unfold evaluate
  split
  · exact targets_error _ _
  · split
    · exact targets_error _ _
    · rw [bind_servingCell]
      refine targets_ok _ ?_
      intro cell named
      rcases Option.map_eq_some_iff.mp named with ⟨chosen, picked, rfl⟩
      rcases exists_offered_of_foldl (BestNeighbour.prefer_cases _) picked with ⟨result, member, offers⟩
      exact ⟨offers.distinct, result, member, offers.cell, chosen.2, offers.rsrq,
        offers.nonzero⟩

theorem Offset.target?_spec (strategy : Offset) {servingRsrq : Level} {cell : CellId}
    (filed : (store.stateOf ue).Filed)
    (chosen : strategy.target? ue servingRsrq store = some cell) :
    some cell ≠ (store.stateOf ue).servingCell ∧ (store.stateOf ue).Shows cell := by
  simp only [target?, bind_servingCell] at chosen
  split at chosen
  · cases chosen
  · next best picked =>
    rcases Option.bind_eq_some_iff.mp picked with ⟨state, known, best?⟩
    rcases NeighbourRecord.best?_mem best? with ⟨member, candidate⟩
    rw [Store.stateOf_of_state? known] at filed candidate ⊢
    rw [isCandidate, Bool.and_eq_true, decide_eq_true_eq, bne_iff_ne] at candidate
    split at chosen
    · cases chosen
      exact ⟨candidate.2, filed.shows member (UInt8.pos_iff_ne_zero.mp candidate.1)⟩
    · cases chosen

theorem Offset.evaluate_targets (strategy : Offset) (filed : (store.stateOf ue).Filed) :
    (strategy.evaluate (α := α) ue id report store).Targets fun cell =>
      some cell ≠ (store.stateOf ue).servingCell ∧ (store.stateOf ue).Shows cell := by
  unfold evaluate
  split
  · exact discover_targets
  · split
    · exact targets_error _ _
    · apply whenConsistent_targets
      apply targets_ok
      intro cell chosen
      exact strategy.target?_spec filed chosen

theorem FuzzyInference.evaluate_targets [Scalar α] (strategy : FuzzyInference α) (filed : (store.stateOf ue).Filed) :
    (strategy.evaluate ue id report store).Targets fun cell =>
      some cell ≠ (store.stateOf ue).servingCell ∧ (store.stateOf ue).Shows cell := by
  unfold evaluate
  split
  · exact discover_targets
  · split
    · exact targets_error _ _
    · apply whenConsistent_targets
      apply targets_ok
      intro cell chosen
      rcases Option.map_eq_some_iff.mp chosen with ⟨⟨_, score⟩, picked, rfl⟩
      exact strategy.evaluator.selectTarget_shows filed picked

end Strategy

namespace HandoverStrategy

variable {α : Type}

/-- Where a strategy has its targets from. -/
def Observes (strategy : HandoverStrategy α) (state : UeState) (report : Report)
    (cell : CellId) : Prop :=
  match strategy with
  | bestNeighbour _ => report.Shows cell
  | _ => state.Shows cell

variable [Scalar α]

/-- It is where the configured algorithm has them from. -/
theorem observes_of_ofConfig {algorithm : AlgorithmConfig α} {strategy : HandoverStrategy α}
    (chosen : ofConfig algorithm = .ok strategy) (configurator : Configurator)
    (interval : ReportInterval) :
    (strategy.register configurator interval).strategy.Observes = algorithm.Observes := by
  cases algorithm with
  | noOp | offset _ _ =>
      cases chosen
      rfl
  | bestNeighbour _ _ | typeOne _ | typeTwo _ =>
      rcases exists_of_map_eq_ok chosen with ⟨part, _, rfl⟩
      rfl

/-- Whatever the strategy, its targets are other cells than the serving one and
were observed. -/
theorem evaluate_targets (strategy : HandoverStrategy α) {ue : UeId} {store : Store}
    (filed : (store.stateOf ue).Filed) (id : MeasId) (report : Report) :
    (strategy.evaluate ue id report store).Targets fun cell =>
      some cell ≠ (store.stateOf ue).servingCell ∧
        strategy.Observes (store.stateOf ue) report cell := by
  cases strategy with
  | noOp => exact targets_abstain _
  | bestNeighbour part => exact part.evaluate_targets
  | offset part => exact part.evaluate_targets filed
  | typeOne part => exact part.evaluate_targets filed
  | typeTwo part => exact part.evaluate_targets filed

end HandoverStrategy

end Handover
