import Handover.Proofs.Engine.Events
import Handover.Proofs.Strategy.Rejection

/-!
# Reports that leave no trace

A report that is turned away changes nothing in the engine, and the host is not
called.  Of a discovery report only the complete results leave something behind.
-/

namespace Handover.Engine

open Strategy

variable {α : Type} [Scalar α] {config : EngineConfig α} {engine : Engine α}

/-- A report on which nothing is decided leaves what its evaluation leaves in the
store. -/
theorem report_of_abstain {current : Engine α} {ue : UeId} {id : MeasId} {report : Report}
    (undecided : ∀ decision,
      (current.strategy.evaluate ue id report current.store).answer = .ok decision →
        decision = .abstain ue) :
    (current.report ue id report).answer = .abstained ∧
      (current.report ue id report).calls = [] ∧
      (current.report ue id report).engine =
        { current with store := (current.strategy.evaluate ue id report current.store).store } := by
  rw [Engine.report, evaluate]
  cases answered : (current.strategy.evaluate ue id report current.store).answer with
  | error error => exact ⟨rfl, rfl, rfl⟩
  | ok decision =>
      cases undecided decision answered
      exact ⟨rfl, rfl, rfl⟩

/-- A report that leaves the store alone, and on which nothing is decided, leaves no
trace. -/
theorem report_of_untouched {current : Engine α} {ue : UeId} {id : MeasId} {report : Report}
    (undecided : ∀ decision,
      (current.strategy.evaluate ue id report current.store).answer = .ok decision →
        decision = .abstain ue)
    (untouched : (current.strategy.evaluate ue id report current.store).store = current.store) :
    (current.report ue id report).answer = .abstained ∧
      (current.report ue id report).calls = [] ∧
      (current.report ue id report).engine = current := by
  obtain ⟨answer, calls, after⟩ := report_of_abstain undecided
  rw [untouched] at after
  exact ⟨answer, calls, after⟩

/-- What a run keeps of a started engine. -/
theorem run_ready (strategy : HandoverStrategy α) (interval : ReportInterval)
    (requests : List Request) :
    ((ready strategy interval).run requests).strategy = strategy.noted ∧
      ((ready strategy interval).run requests).configurator = strategy.events interval :=
  ⟨run_strategy _ requests, run_configurator _ requests⟩

/-- A report has a problem if its event was never registered, or if it lacks the
neighbours that it should be about.  The engine that never hands over finds none. -/
theorem report_problem_iff (started : (start config).result = .ok engine)
    (requests : List Request) (ue : UeId) (id : MeasId) (report : Report) (error : ReportError) :
    let current := engine.run requests
    (current.strategy.evaluate ue id report current.store).answer = .error error ↔
      current.configurator.events ≠ [] ∧ (∀ event, ¬current.configurator.Registers id event) ∧
          error = .unknownEvent id ∨
        ∃ event, current.configurator.Registers id event ∧ event.kind ≠ .a2 ∧
          report.neighbours = [] ∧ error = .noNeighbours id := by
  obtain ⟨_, interval, strategy, _, _, rfl⟩ := start_ok_iff.mp started
  intro current
  obtain ⟨same, events⟩ := run_ready strategy interval requests
  have some : (strategy.events interval).events ≠ [] ↔ strategy.wanted ≠ [] := by
    simp [HandoverStrategy.events, Configurator.ofEvents]
  rw [same, events, some]
  exact HandoverStrategy.evaluate_error_iff interval

section Ready

variable {strategy : HandoverStrategy α} {interval : ReportInterval} {current : Engine α}
  (same : current.strategy = strategy.noted) {ue : UeId} {id : MeasId} {report : Report}

include same

theorem report_of_problem {error : ReportError}
    (failed : (current.strategy.evaluate ue id report current.store).answer = .error error) :
    (current.report ue id report).answer = .abstained ∧
      (current.report ue id report).calls = [] ∧
      (current.report ue id report).engine = current := by
  apply report_of_untouched
  · intro decision decided
    cases failed.symm.trans decided
  · rw [same] at failed ⊢
    exact HandoverStrategy.store_of_error failed

theorem report_of_exceeded {event : MeasurementEvent}
    (registered : (strategy.events interval).Registers id event) (poor : event.kind = .a2)
    (exceeded : event.threshold < report.servingRsrq) :
    (current.report ue id report).answer = .abstained ∧
      (current.report ue id report).calls = [] ∧
      (current.report ue id report).engine = current := by
  have turnedAway : strategy.noted.evaluate ue id report current.store = _ :=
    HandoverStrategy.evaluate_of_exceeded registered poor exceeded
  rw [← same] at turnedAway
  apply report_of_untouched <;> rw [turnedAway]
  rintro decision ⟨⟩
  rfl

/-- A discovery report leaves the results behind that are stored. -/
theorem engine_of_discovery {event : MeasurementEvent}
    (registered : (strategy.events interval).Registers id event) (discovery : event.kind = .a4) :
    (current.report ue id report).engine =
      { current with store := (discover (α := α) ue id report current.store).store } := by
  have found : strategy.noted.evaluate ue id report current.store = _ :=
    HandoverStrategy.evaluate_of_discovery registered discovery
  rw [← same] at found
  rw [← found]
  refine (report_of_abstain ?_).2.2
  intro decision decided
  rw [found, discover] at decided
  split at decided <;> cases decided
  rfl

end Ready

/-- A report with a problem, a report of a poor serving cell whose quality exceeds the
configured threshold, and any report to an engine that never hands over leave no
trace.  Incomplete results in a discovery report leave none either. -/
theorem rejected_reports_leave_no_trace (started : (start config).result = .ok engine)
    (requests : List Request) (ue : UeId) (id : MeasId) (report : Report) :
    let current := engine.run requests
    ((∃ error, (current.strategy.evaluate ue id report current.store).answer = .error error) ∨
        (∃ event threshold, current.configurator.Registers id event ∧ event.kind = .a2 ∧
          config.algorithm.servingThreshold? = some threshold ∧ threshold < report.servingRsrq) ∨
        config.algorithm = .noOp →
      (current.report ue id report).answer = .abstained ∧
        (current.report ue id report).calls = [] ∧
        (current.report ue id report).engine = current) ∧
      ∀ event, current.configurator.Registers id event → event.kind = .a4 →
        (current.report ue id report).engine = (current.report ue id report.completed).engine ∧
          ((∀ result ∈ report.neighbours, result.isComplete = false) →
            (current.report ue id report).engine = current) := by
  obtain ⟨_, interval, strategy, _, chosen, rfl⟩ := start_ok_iff.mp started
  intro current
  obtain ⟨same, events⟩ := run_ready strategy interval requests
  constructor
  · rintro (⟨error, failed⟩ | ⟨event, threshold, registered, poor, configured, exceeded⟩ | never)
    · exact report_of_problem same failed
    · rw [events] at registered
      have asked := AlgorithmConfig.wanted_of_ofConfig chosen
      obtain ⟨wanted, member, rfl⟩ := HandoverStrategy.exists_of_registers registered
      cases (AlgorithmConfig.servingThreshold?_of_wanted asked member poor).symm.trans configured
      exact report_of_exceeded same registered poor exceeded
    · rw [never] at chosen
      cases chosen
      apply report_of_untouched <;> rw [same]
      · rintro decision ⟨⟩
        rfl
      · rfl
  · intro event registered discovery
    rw [events] at registered
    constructor
    · rw [engine_of_discovery same registered discovery,
        engine_of_discovery same registered discovery, discover_completed]
    · intro incomplete
      rw [engine_of_discovery same registered discovery,
        discover_of_incomplete ue id current.store incomplete]

/-- With the usual configuration: a report under an identity that was never given out,
one of a serving cell above the threshold of 30, and a discovery report in which one
of two cells has no power. -/
theorem rejected_reports_leave_no_trace_usual :
    ∃ engine : Engine Float, (start .usual).result = .ok engine ∧
      let current := engine.run [.report ⟨1⟩ ⟨2⟩ ⟨⟨100000⟩, 40, 10, [⟨⟨5⟩, some 45, some 30⟩]⟩]
      let partly : Report :=
        ⟨⟨200000⟩, 40, 10, [⟨⟨6⟩, none, some 30⟩, ⟨⟨7⟩, some 50, some 25⟩]⟩
      (current.report ⟨2⟩ ⟨3⟩ ⟨⟨200000⟩, 40, 10, []⟩).engine = current ∧
        (current.report ⟨2⟩ ⟨1⟩ ⟨⟨200000⟩, 40, 31, []⟩).engine = current ∧
        (current.report ⟨1⟩ ⟨2⟩ partly).engine = (current.report ⟨1⟩ ⟨2⟩ partly.completed).engine ∧
        ((current.report ⟨1⟩ ⟨2⟩ partly).engine.store.snapshot ⟨1⟩).map NeighbourRecord.cell =
          [⟨5⟩, ⟨7⟩] := by
  have started : (start (.usual : EngineConfig Float)).result = .ok _ := rfl
  have traceless := rejected_reports_leave_no_trace started
    [.report ⟨1⟩ ⟨2⟩ ⟨⟨100000⟩, 40, 10, [⟨⟨5⟩, some 45, some 30⟩]⟩]
  exact ⟨_, rfl, ((traceless ⟨2⟩ ⟨3⟩ _).1 (.inl ⟨_, rfl⟩)).2.2,
    ((traceless ⟨2⟩ ⟨1⟩ _).1 (.inr (.inl ⟨_, _, List.mem_cons_self, rfl, rfl, by decide⟩))).2.2,
    ((traceless ⟨1⟩ ⟨2⟩ _).2 _ (List.mem_cons_of_mem _ List.mem_cons_self) rfl).1,
    by decide⟩

end Handover.Engine
