import Handover.Proofs.Strategy.Events

/-!
# Reports that are turned away

A report under an unknown identity, a report without the neighbours that it should
name, and a report that contradicts itself leave the store as it was.  A discovery
report leaves what its complete results alone would leave.
-/

namespace Handover

/-- The result has both quantities. -/
def NeighbourResult.isComplete (result : NeighbourResult) : Bool :=
  result.rsrp.isSome && result.rsrq.isSome

theorem NeighbourResult.requireBoth_of_incomplete {result : NeighbourResult}
    (incomplete : result.isComplete = false) :
    ∃ error, result.requireBoth = .error error := by
  obtain ⟨cell, rsrp, rsrq⟩ := result
  cases rsrp with
  | none => exact ⟨_, rfl⟩
  | some _ =>
      cases rsrq with
      | none => exact ⟨_, rfl⟩
      | some _ => cases incomplete

theorem NeighbourResult.requireBoth_of_complete {result : NeighbourResult}
    (complete : result.isComplete = true) :
    ∃ levels, result.requireBoth = .ok levels := by
  obtain ⟨cell, rsrp, rsrq⟩ := result
  cases rsrp with
  | none => cases complete
  | some _ =>
      cases rsrq with
      | none => cases complete
      | some _ => exact ⟨_, rfl⟩

/-- The report without its incomplete results. -/
def Report.completed (report : Report) : Report :=
  { report with neighbours := report.neighbours.filter NeighbourResult.isComplete }

namespace Strategy

variable {α : Type}

/-- Incomplete results are not stored. -/
theorem cacheResults_filter (ue : UeId) (time : Instant) (results : List NeighbourResult)
    (store : Store) :
    (cacheResults (α := α) ue time (results.filter NeighbourResult.isComplete) store).1 =
      (cacheResults (α := α) ue time results store).1 := by
  induction results generalizing store with
  | nil => rfl
  | cons result rest ih =>
      cases complete : result.isComplete with
      | true =>
          obtain ⟨⟨rsrp, rsrq⟩, both⟩ := NeighbourResult.requireBoth_of_complete complete
          rw [List.filter_cons_of_pos complete, cacheResults, cacheResults, both]
          exact ih _
      | false =>
          obtain ⟨error, missing⟩ := NeighbourResult.requireBoth_of_incomplete complete
          rw [List.filter_cons_of_neg (Bool.eq_false_iff.mp complete), ih, cacheResults, missing]

/-- A discovery report is stored as its complete results are. -/
theorem discover_completed (ue : UeId) (id : MeasId) (report : Report) (store : Store) :
    (discover (α := α) ue id report.completed store).store =
      (discover (α := α) ue id report store).store := by
  have stored (other : Report) : (discover (α := α) ue id other store).store =
      (cacheResults (α := α) ue other.time other.neighbours store).1 := by
    rw [discover]
    cases empty : other.neighbours with
    | nil => rfl
    | cons _ _ => rfl
  rw [stored, stored]
  exact cacheResults_filter ue report.time report.neighbours store

/-- Nothing is stored if no result is complete. -/
theorem discover_of_incomplete (ue : UeId) (id : MeasId) {report : Report} (store : Store)
    (incomplete : ∀ result ∈ report.neighbours, result.isComplete = false) :
    (discover (α := α) ue id report store).store = store := by
  have none : report.completed.neighbours = [] :=
    List.filter_eq_nil_iff.mpr fun result member => Bool.eq_false_iff.mp (incomplete result member)
  rw [← discover_completed, discover, none]
  rfl

/-- The problem with a discovery report is that it has no results. -/
theorem discover_error_iff {ue : UeId} {id : MeasId} {report : Report} {store : Store}
    {error : ReportError} :
    (discover (α := α) ue id report store).answer = .error error ↔
      report.neighbours = [] ∧ error = .noNeighbours id := by
  rw [discover]
  cases report.neighbours with
  | nil => simp [eq_comm]
  | cons result rest => simp

/-! ## What a strategy does with each of its events -/

section Noted

variable {ue : UeId} {id : MeasId} {report : Report} {store : Store}

/-- What a strategy on two events does: it stores what the second one reports, and it
assesses a report of the first one unless that contradicts itself. -/
def byEvent (ue : UeId) (id : MeasId) (report : Report) (threshold : Level) (store : Store)
    (assessment : Evaluation α) : Evaluation α :=
  if id = ⟨2⟩ then discover ue id report store
  else if id = ⟨1⟩ then whenConsistent ue report.servingRsrq threshold store assessment
  else ⟨store, .error (.unknownEvent id), []⟩

theorem byEvent_error_iff {threshold : Level} {assessment : Evaluation α}
    (decided : ∃ decision, assessment.answer = .ok decision) {error : ReportError} :
    (byEvent ue id report threshold store assessment).answer = .error error ↔
      id ≠ ⟨1⟩ ∧ id ≠ ⟨2⟩ ∧ error = .unknownEvent id ∨
        id = ⟨2⟩ ∧ report.neighbours = [] ∧ error = .noNeighbours id := by
  obtain ⟨decision, decided⟩ := decided
  by_cases discovery : id = ⟨2⟩
  · subst discovery
    rw [byEvent, if_pos rfl, discover_error_iff]
    simp
  · by_cases poor : id = ⟨1⟩
    · subst poor
      rw [byEvent, if_neg discovery, if_pos rfl, whenConsistent]
      split <;> simp [decided]
    · rw [byEvent, if_neg discovery, if_neg poor]
      simp [discovery, poor, eq_comm]

theorem byEvent_store_of_error {threshold : Level} {assessment : Evaluation α}
    (decided : ∃ decision, assessment.answer = .ok decision) {error : ReportError}
    (failed : (byEvent ue id report threshold store assessment).answer = .error error) :
    (byEvent ue id report threshold store assessment).store = store := by
  rcases (byEvent_error_iff decided).mp failed with ⟨other, unknown, _⟩ | ⟨rfl, empty, _⟩
  · rw [byEvent, if_neg unknown, if_neg other]
  · rw [byEvent, if_pos rfl, discover, empty]
    rfl

/-- A strategy on two events that has noted both of them. -/
theorem eq_byEvent {threshold : Level} {assessment : Evaluation α} :
    (if some (⟨2⟩ : MeasId) = some id then discover ue id report store
      else if some (⟨1⟩ : MeasId) ≠ some id then ⟨store, .error (.unknownEvent id), []⟩
      else whenConsistent ue report.servingRsrq threshold store assessment) =
    byEvent ue id report threshold store assessment := by
  simp only [byEvent, Option.some.injEq, ne_eq, ite_not, eq_comm (a := id)]

theorem Offset.evaluate_noted (strategy : Offset) :
    strategy.noted.evaluate (α := α) ue id report store =
      byEvent ue id report strategy.servingThreshold store
        ⟨store, .ok ⟨ue, strategy.target? ue report.servingRsrq store⟩, []⟩ :=
  eq_byEvent

theorem FuzzyInference.evaluate_noted [Scalar α] (strategy : FuzzyInference α) :
    strategy.noted.evaluate ue id report store =
      byEvent ue id report strategy.servingThreshold store (strategy.infer ue report store) :=
  eq_byEvent

theorem BestNeighbour.evaluate_error_iff [Scalar α] {strategy : BestNeighbour}
    {error : ReportError} :
    (strategy.noted.evaluate (α := α) ue id report store).answer = .error error ↔
      id ≠ ⟨1⟩ ∧ error = .unknownEvent id ∨
        id = ⟨1⟩ ∧ report.neighbours = [] ∧ error = .noNeighbours id := by
  by_cases known : id = ⟨1⟩
  · subst known
    cases empty : report.neighbours with
    | nil => simp [evaluate, noted, empty, eq_comm]
    | cons _ _ => simp [evaluate, noted, empty]
  · have other : some (⟨1⟩ : MeasId) ≠ some id := fun same => known (Option.some.inj same).symm
    simp [evaluate, noted, known, other, eq_comm]

end Noted

end Strategy

namespace HandoverStrategy

variable {α : Type} [Scalar α] {strategy : HandoverStrategy α} {interval : ReportInterval}
  {ue : UeId} {id : MeasId} {event : MeasurementEvent} {report : Report} {store : Store}

open Strategy

/-- A report that is answered with a problem changes nothing. -/
theorem store_of_error {error : ReportError}
    (failed : (strategy.noted.evaluate ue id report store).answer = .error error) :
    (strategy.noted.evaluate ue id report store).store = store := by
  cases strategy with
  | noOp => rfl
  | bestNeighbour part =>
      rw [noted, evaluate, BestNeighbour.evaluate]
      split
      · rfl
      · split <;> rfl
  | offset part =>
      rw [noted, evaluate, Offset.evaluate_noted] at failed ⊢
      exact byEvent_store_of_error ⟨_, rfl⟩ failed
  | typeOne part | typeTwo part =>
      rw [noted, evaluate, FuzzyInference.evaluate_noted] at failed ⊢
      exact byEvent_store_of_error ⟨_, rfl⟩ failed

/-- Whatever the strategy, a discovery report is stored. -/
theorem evaluate_of_discovery (registered : (strategy.events interval).Registers id event)
    (discovery : event.kind = .a4) :
    strategy.noted.evaluate ue id report store = discover ue id report store := by
  cases strategy with
  | noOp => cases registered
  | bestNeighbour part =>
      obtain ⟨_, rfl⟩ := Configurator.registers_single.mp registered
      cases discovery
  | offset part =>
      rcases Configurator.registers_pair.mp registered with ⟨rfl, rfl⟩ | ⟨rfl, rfl⟩
      · cases discovery
      · rw [noted, evaluate, Offset.evaluate_noted, byEvent, if_pos rfl]
  | typeOne part | typeTwo part =>
      rcases Configurator.registers_pair.mp registered with ⟨rfl, rfl⟩ | ⟨rfl, rfl⟩
      · cases discovery
      · rw [noted, evaluate, FuzzyInference.evaluate_noted, byEvent, if_pos rfl]

/-- The report of a serving cell that is poor by its event and not by its level. -/
theorem evaluate_of_exceeded (registered : (strategy.events interval).Registers id event)
    (poor : event.kind = .a2) (exceeded : event.threshold < report.servingRsrq) :
    strategy.noted.evaluate ue id report store =
      ⟨store, .ok (.abstain ue), [.inconsistent ue report.servingRsrq event.threshold]⟩ := by
  have first : (⟨1⟩ : MeasId) ≠ ⟨2⟩ := by decide
  cases strategy with
  | noOp => cases registered
  | bestNeighbour part =>
      obtain ⟨_, rfl⟩ := Configurator.registers_single.mp registered
      cases poor
  | offset part =>
      rcases Configurator.registers_pair.mp registered with ⟨rfl, rfl⟩ | ⟨rfl, rfl⟩
      · rw [noted, evaluate, Offset.evaluate_noted, byEvent, if_neg first, if_pos rfl,
          whenConsistent]
        exact if_pos exceeded
      · cases poor
  | typeOne part | typeTwo part =>
      rcases Configurator.registers_pair.mp registered with ⟨rfl, rfl⟩ | ⟨rfl, rfl⟩
      · rw [noted, evaluate, FuzzyInference.evaluate_noted, byEvent, if_neg first, if_pos rfl,
          whenConsistent]
        exact if_pos exceeded
      · cases poor

theorem unregistered_pair {first second : MeasurementEvent} :
    (∀ event, ¬(Configurator.ofEvents [first, second]).Registers id event) ↔
      id ≠ ⟨1⟩ ∧ id ≠ ⟨2⟩ := by
  simp only [Configurator.registers_pair, not_or, not_and]
  constructor
  · intro unknown
    exact ⟨fun same => (unknown first).1 same rfl, fun same => (unknown second).2 same rfl⟩
  · rintro ⟨one, two⟩ event
    exact ⟨fun same => absurd same one, fun same => absurd same two⟩

theorem registers_other_pair {first second : MeasurementEvent} (poor : first.kind = .a2)
    (discovery : second.kind = .a4) {condition : Prop} :
    (∃ event, (Configurator.ofEvents [first, second]).Registers id event ∧ event.kind ≠ .a2 ∧
      condition) ↔ id = ⟨2⟩ ∧ condition := by
  simp only [Configurator.registers_pair]
  constructor
  · rintro ⟨event, ⟨_, rfl⟩ | ⟨known, rfl⟩, kind, holds⟩
    · exact absurd poor kind
    · exact ⟨known, holds⟩
  · rintro ⟨known, holds⟩
    exact ⟨second, .inr ⟨known, rfl⟩, by rw [discovery]; decide, holds⟩

/-- A report has a problem if its event was never registered, or if it lacks the
neighbours that every event but that of a poor serving cell is about. -/
theorem evaluate_error_iff {error : ReportError} (interval : ReportInterval) :
    (strategy.noted.evaluate ue id report store).answer = .error error ↔
      strategy.wanted ≠ [] ∧ (∀ event, ¬(strategy.events interval).Registers id event) ∧
          error = .unknownEvent id ∨
        ∃ event, (strategy.events interval).Registers id event ∧ event.kind ≠ .a2 ∧
          report.neighbours = [] ∧ error = .noNeighbours id := by
  cases strategy with
  | noOp => simp [noted, evaluate, events, wanted, Configurator.Registers, Configurator.ofEvents]
  | bestNeighbour part =>
      rw [noted, evaluate, BestNeighbour.evaluate_error_iff]
      simp [events, wanted, Configurator.registers_single, MeasurementEvent.every,
        MeasurementEvent.neighbourBetter]
  | offset part =>
      rw [noted, evaluate, Offset.evaluate_noted, byEvent_error_iff ⟨_, rfl⟩]
      simp only [events, wanted, List.map_cons, List.map_nil]
      rw [unregistered_pair, registers_other_pair rfl rfl, and_assoc]
      simp
  | typeOne part | typeTwo part =>
      rw [noted, evaluate, FuzzyInference.evaluate_noted, byEvent_error_iff ⟨_, rfl⟩]
      simp only [events, wanted, List.map_cons, List.map_nil]
      rw [unregistered_pair, registers_other_pair rfl rfl, and_assoc]
      simp

end HandoverStrategy

end Handover
