import Handover.Proofs.Engine.Sharding
import Handover.Proofs.Strategy.Events

/-!
# The events of an engine

An engine starts with the events of its strategy, and they stay what they are as
long as it runs.
-/

namespace Handover

namespace Engine

variable {α : Type}

/-- An engine with a strategy whose events are registered. -/
def ready (strategy : HandoverStrategy α) (interval : ReportInterval) : Engine α where
  strategy := strategy.noted
  configurator := strategy.events interval
  store := .empty strategy.historyLength
  stats := .zero

variable [Scalar α]

theorem start_result (config : EngineConfig α) : (start config).result = build config := by
  rw [start]
  split <;> next built => rw [built]

/-- The registration of the events succeeds after the checks. -/
theorem register_of_validate {config : EngineConfig α} {strategy : HandoverStrategy α}
    (valid : config.validate = .ok ())
    (chosen : HandoverStrategy.ofConfig config.algorithm = .ok strategy)
    (interval : ReportInterval) :
    strategy.register .empty interval = ⟨strategy.noted, strategy.events interval, .ok ()⟩ := by
  obtain ⟨_, _, checked⟩ := exists_of_bind_eq_ok valid
  exact HandoverStrategy.register_of_valid (AlgorithmConfig.valid_of_wanted checked
    (AlgorithmConfig.wanted_of_ofConfig chosen) interval)

/-- An engine starts if its configuration passes the checks and its strategy can be
built.  The registration of the events is never what it fails at. -/
theorem start_ok_iff {config : EngineConfig α} {engine : Engine α} :
    (start config).result = .ok engine ↔
      config.validate = .ok () ∧ ∃ interval strategy, config.reportInterval = .ok interval ∧
        HandoverStrategy.ofConfig config.algorithm = .ok strategy ∧
        engine = ready strategy interval := by
  rw [start_result, build]
  constructor
  · intro built
    obtain ⟨_, valid, built⟩ := exists_of_bind_eq_ok built
    obtain ⟨interval, standard, built⟩ := exists_of_bind_eq_ok built
    obtain ⟨strategy, chosen, built⟩ := exists_of_bind_eq_ok built
    simp only [register_of_validate valid chosen interval] at built
    cases built
    exact ⟨valid, interval, strategy, standard, chosen, rfl⟩
  · rintro ⟨valid, interval, strategy, standard, chosen, rfl⟩
    rw [bind_of_ok valid, bind_of_ok standard, bind_of_ok chosen]
    simp only [register_of_validate valid chosen interval]
    rfl

theorem configurator_evaluate (engine : Engine α) (ue : UeId) (id : MeasId) (report : Report) :
    (engine.evaluate ue id report).engine.configurator = engine.configurator := by
  rw [evaluate]
  split <;> rfl

omit [Scalar α] in
theorem configurator_offer (engine : Engine α) (decision : Decision) :
    (engine.offer decision).engine.configurator = engine.configurator := by
  rw [offer]
  split <;> rfl

theorem configurator_handle (engine : Engine α) (request : Request) :
    (engine.handle request).engine.configurator = engine.configurator := by
  cases request with
  | report ue id report =>
      exact (configurator_offer _ _).trans (engine.configurator_evaluate ue id report)
  | evaluate ue id report => exact engine.configurator_evaluate ue id report
  | offer decision => exact engine.configurator_offer decision
  | connect ue cell time => rfl
  | remove ue => rfl
  | acknowledge ue outcome =>
      change (engine.acknowledge ue outcome).engine.configurator = engine.configurator
      rw [acknowledge]
      split <;> rfl
  | conclude ue outcome time =>
      change (engine.conclude ue outcome time).engine.configurator = engine.configurator
      rw [conclude]
      split <;> rfl

theorem run_configurator (engine : Engine α) (requests : List Request) :
    (engine.run requests).configurator = engine.configurator :=
  run_induction (motive := fun current => current.configurator = engine.configurator) rfl
    (fun current request same => (current.configurator_handle request).trans same) requests

end Engine

end Handover
