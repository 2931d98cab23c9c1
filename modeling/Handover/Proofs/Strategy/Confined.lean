import Handover.Proofs.Ue.Store
import Handover.Strategy.Choice

/-!
# Evaluation is confined to one terminal

A strategy is asked about one terminal at a time.  Its answer depends only on
what the store holds of that terminal, and nothing else in the store changes.
All strategies are built from a few evaluations for which this is shown once.
-/

namespace Handover

open Inference Strategy

namespace Store

/-- Two stores keep equally long histories and hold the same of a terminal. -/
structure Alike (ue : UeId) (first second : Store) : Prop where
  historyLength : first.historyLength = second.historyLength
  state? : first.state? ue = second.state? ue

/-- The second store differs from the first one in a single terminal at most. -/
structure DifferOnly (ue : UeId) (before after : Store) : Prop where
  historyLength : after.historyLength = before.historyLength
  others : ∀ other, other ≠ ue → after.state? other = before.state? other

theorem Alike.stateOf {ue : UeId} {first second : Store} (alike : Alike ue first second) :
    first.stateOf ue = second.stateOf ue := by
  rw [Store.stateOf, Store.stateOf, alike.state?, alike.historyLength]

theorem Alike.put {ue : UeId} {first second : Store} (alike : Alike ue first second)
    (state : UeState) : Alike ue (first.put ue state) (second.put ue state) := by
  refine ⟨alike.historyLength, ?_⟩
  rw [state?_put_self, state?_put_self]

theorem Alike.remove {ue : UeId} {first second : Store} (alike : Alike ue first second) :
    Alike ue (first.remove ue) (second.remove ue) := by
  refine ⟨alike.historyLength, ?_⟩
  rw [state?_remove_self, state?_remove_self]

theorem Alike.update {ue : UeId} {first second : Store} (alike : Alike ue first second)
    (cell : CellId) (rsrp rsrq : Level) (time : Instant) :
    Alike ue (first.update ue cell rsrp rsrq time) (second.update ue cell rsrp rsrq time) := by
  unfold Store.update Store.change
  rw [alike.stateOf]
  exact alike.put _

theorem DifferOnly.refl (ue : UeId) (store : Store) : DifferOnly ue store store :=
  ⟨rfl, fun _ _ => rfl⟩

theorem DifferOnly.trans {ue : UeId} {first second third : Store}
    (left : DifferOnly ue first second) (right : DifferOnly ue second third) :
    DifferOnly ue first third where
  historyLength := right.historyLength.trans left.historyLength
  others other distinct := (right.others other distinct).trans (left.others other distinct)

theorem differOnly_put (store : Store) (ue : UeId) (state : UeState) :
    DifferOnly ue store (store.put ue state) :=
  ⟨rfl, fun _ distinct => state?_put_of_ne store distinct state⟩

theorem differOnly_remove (store : Store) (ue : UeId) :
    DifferOnly ue store (store.remove ue) :=
  ⟨rfl, fun _ distinct => state?_remove_of_ne store distinct⟩

theorem DifferOnly.alike {ue other : UeId} {before after : Store}
    (change : DifferOnly ue before after) (distinct : other ≠ ue) : Alike other before after :=
  ⟨change.historyLength.symm, (change.others other distinct).symm⟩

theorem Alike.trans {ue : UeId} {first second third : Store} (left : Alike ue first second)
    (right : Alike ue second third) : Alike ue first third :=
  ⟨left.historyLength.trans right.historyLength, left.state?.trans right.state?⟩

theorem Alike.symm {ue : UeId} {first second : Store} (alike : Alike ue first second) :
    Alike ue second first :=
  ⟨alike.historyLength.symm, alike.state?.symm⟩

end Store

namespace Strategy

variable {α : Type}

/-- An evaluation reads and writes the state of one terminal only. -/
structure Confined (ue : UeId) (evaluate : Store → Evaluation α) : Prop where
  differOnly : ∀ store, Store.DifferOnly ue store (evaluate store).store
  alike : ∀ {first second}, Store.Alike ue first second →
    Store.Alike ue (evaluate first).store (evaluate second).store
  answer : ∀ {first second}, Store.Alike ue first second →
    (evaluate first).answer = (evaluate second).answer
  warnings : ∀ {first second}, Store.Alike ue first second →
    (evaluate first).warnings = (evaluate second).warnings

theorem confined_of_answer {ue : UeId} {answer : Store → Except ReportError Decision}
    (warnings : List (Warning α))
    (agree : ∀ {first second}, Store.Alike ue first second → answer first = answer second) :
    Confined ue fun store => ⟨store, answer store, warnings⟩ where
  differOnly store := .refl ue store
  alike same := same
  answer same := agree same
  warnings _ := rfl

/-- An evaluation that leaves the store alone and looks at nothing in it. -/
theorem confined_const (ue : UeId) (answer : Except ReportError Decision)
    (warnings : List (Warning α)) : Confined ue fun store => ⟨store, answer, warnings⟩ :=
  confined_of_answer warnings fun _ => rfl

theorem cacheResults_differOnly (ue : UeId) (time : Instant) (results : List NeighbourResult)
    (store : Store) :
    Store.DifferOnly ue store (cacheResults (α := α) ue time results store).1 := by
  induction results generalizing store with
  | nil => exact .refl ue store
  | cons result rest ih =>
      rw [cacheResults]
      split
      · exact (Store.differOnly_put store ue _).trans (ih _)
      · exact ih store

theorem cacheResults_alike {ue : UeId} (time : Instant) (results : List NeighbourResult)
    {first second : Store} (alike : Store.Alike ue first second) :
    Store.Alike ue (cacheResults (α := α) ue time results first).1
      (cacheResults (α := α) ue time results second).1 := by
  induction results generalizing first second with
  | nil => exact alike
  | cons result rest ih =>
      rw [cacheResults, cacheResults]
      split
      · exact ih (alike.update _ _ _ _)
      · exact ih alike

/-- Which results are incomplete does not depend on the store. -/
theorem cacheResults_warnings (ue : UeId) (time : Instant) (results : List NeighbourResult)
    (first second : Store) :
    (cacheResults (α := α) ue time results first).2 =
      (cacheResults (α := α) ue time results second).2 := by
  induction results generalizing first second with
  | nil => rfl
  | cons result rest ih =>
      rw [cacheResults, cacheResults]
      split
      · exact ih _ _
      · exact congrArg (List.cons _) (ih first second)

theorem confined_discover (ue : UeId) (id : MeasId) (report : Report) :
    Confined (α := α) ue (discover ue id report) := by
  by_cases empty : report.neighbours.isEmpty
  · have constant : discover (α := α) ue id report =
        fun store => ⟨store, .error (.noNeighbours id), []⟩ := by
      funext store
      simp [discover, empty]
    rw [constant]
    exact confined_const ue _ _
  · have cached : discover (α := α) ue id report = fun store =>
        ⟨(cacheResults (α := α) ue report.time report.neighbours store).1, .ok (.abstain ue),
          (cacheResults ue report.time report.neighbours store).2⟩ := by
      funext store
      simp [discover, empty]
    rw [cached]
    exact
      { differOnly := cacheResults_differOnly ue report.time report.neighbours
        alike := cacheResults_alike report.time report.neighbours
        answer := fun _ => rfl
        warnings := fun _ => cacheResults_warnings ue report.time report.neighbours _ _ }

theorem Confined.whenConsistent {ue : UeId} {evaluate : Store → Evaluation α}
    (confined : Confined ue evaluate) (servingRsrq threshold : Level) :
    Confined ue fun store =>
      Strategy.whenConsistent ue servingRsrq threshold store (evaluate store) := by
  by_cases above : threshold < servingRsrq
  · simp only [Strategy.whenConsistent, above, if_true]
    exact confined_const ue _ _
  · simp only [Strategy.whenConsistent, above, if_false]
    exact confined

theorem BestNeighbour.confined (strategy : BestNeighbour) (ue : UeId) (id : MeasId)
    (report : Report) : Confined (α := α) ue (strategy.evaluate ue id report) := by
  unfold BestNeighbour.evaluate
  by_cases unknown : strategy.event ≠ some id
  · simp only [unknown, if_true, ne_eq, not_false_eq_true]
    exact confined_const ue _ _
  · by_cases empty : report.neighbours.isEmpty
    · simp only [unknown, empty, if_true, if_false]
      exact confined_const ue _ _
    · simp only [unknown, empty, if_false]
      refine confined_of_answer _ fun {first second} alike => ?_
      rw [alike.state?]

theorem Offset.target?_of_alike (strategy : Offset) {ue : UeId} (servingRsrq : Level)
    {first second : Store} (alike : Store.Alike ue first second) :
    strategy.target? ue servingRsrq first = strategy.target? ue servingRsrq second := by
  simp only [Offset.target?, Store.best?, alike.state?]

theorem Offset.confined (strategy : Offset) (ue : UeId) (id : MeasId) (report : Report) :
    Confined (α := α) ue (strategy.evaluate ue id report) := by
  unfold Offset.evaluate
  by_cases discovered : strategy.discoveryEvent = some id
  · simp only [discovered, if_true]
    exact confined_discover ue id report
  · by_cases unknown : strategy.servingEvent ≠ some id
    · simp only [discovered, unknown, if_true, if_false, ne_eq, not_false_eq_true]
      exact confined_const ue _ _
    · simp only [discovered, unknown, if_false]
      refine Confined.whenConsistent (confined_of_answer _ fun alike => ?_) _ _
      rw [strategy.target?_of_alike report.servingRsrq alike]

variable [Scalar α]

theorem FuzzyInference.confined_infer (strategy : FuzzyInference α) (ue : UeId)
    (report : Report) : Confined ue (strategy.infer ue report) where
  differOnly store := Store.differOnly_put store ue _
  alike same := by
    simp only [FuzzyInference.infer, same.stateOf]
    exact same.put _
  answer same := by
    simp only [FuzzyInference.infer, same.stateOf]
  warnings same := by
    simp only [FuzzyInference.infer, same.stateOf]

theorem FuzzyInference.confined (strategy : FuzzyInference α) (ue : UeId) (id : MeasId)
    (report : Report) : Confined ue (strategy.evaluate ue id report) := by
  unfold FuzzyInference.evaluate
  by_cases discovered : strategy.discoveryEvent = some id
  · simp only [discovered, if_true]
    exact confined_discover ue id report
  · by_cases unknown : strategy.servingEvent ≠ some id
    · simp only [discovered, unknown, if_true, if_false, ne_eq, not_false_eq_true]
      exact confined_const ue _ _
    · simp only [discovered, unknown, if_false]
      exact (strategy.confined_infer ue report).whenConsistent _ _

end Strategy

namespace Strategy

variable {α : Type}

theorem discover_ue {ue : UeId} {id : MeasId} {report : Report} {store : Store}
    {decision : Decision}
    (decided : (discover (α := α) ue id report store).answer = .ok decision) :
    decision.ue = ue := by
  unfold discover at decided
  split at decided
  · cases decided
  · cases decided
    rfl

theorem whenConsistent_ue {ue : UeId} {servingRsrq threshold : Level} {store : Store}
    {evaluation : Evaluation α} {decision : Decision}
    (inner : ∀ decision, evaluation.answer = .ok decision → decision.ue = ue)
    (decided : (whenConsistent ue servingRsrq threshold store evaluation).answer =
      .ok decision) : decision.ue = ue := by
  unfold whenConsistent at decided
  split at decided
  · cases decided
    rfl
  · exact inner decision decided

end Strategy

namespace HandoverStrategy

variable {α : Type} [Scalar α]

/-- A decision is about the terminal of the report. -/
theorem evaluate_ue {strategy : HandoverStrategy α} {ue : UeId} {id : MeasId} {report : Report}
    {store : Store} {decision : Decision}
    (decided : (strategy.evaluate ue id report store).answer = .ok decision) :
    decision.ue = ue := by
  have inferred : ∀ part : FuzzyInference α,
      (part.evaluate ue id report store).answer = .ok decision → decision.ue = ue := by
    intro part decided
    unfold FuzzyInference.evaluate at decided
    split at decided
    · exact discover_ue decided
    · split at decided
      · cases decided
      · refine whenConsistent_ue (fun decision answered => ?_) decided
        cases answered
        rfl
  cases strategy with
  | noOp =>
      cases decided
      rfl
  | bestNeighbour part =>
      simp only [evaluate, BestNeighbour.evaluate] at decided
      split at decided
      · cases decided
      · split at decided
        · cases decided
        · cases decided
          rfl
  | offset part =>
      simp only [evaluate, Offset.evaluate] at decided
      split at decided
      · exact discover_ue decided
      · split at decided
        · cases decided
        · refine whenConsistent_ue (fun decision answered => ?_) decided
          cases answered
          rfl
  | typeOne part => exact inferred part decided
  | typeTwo part => exact inferred part decided

/-- Whatever the algorithm, evaluating a report of a terminal reads and writes
the state of that terminal only. -/
theorem confined (strategy : HandoverStrategy α) (ue : UeId) (id : MeasId) (report : Report) :
    Confined ue (strategy.evaluate ue id report) := by
  cases strategy with
  | noOp => exact confined_const ue _ _
  | bestNeighbour part => exact part.confined ue id report
  | offset part => exact part.confined ue id report
  | typeOne part => exact part.confined ue id report
  | typeTwo part => exact part.confined ue id report

end HandoverStrategy

end Handover
