import Handover.Proofs.Dispatch
import Handover.Proofs.Success
import Handover.Proofs.Ue.Store
import Handover.Engine

/-!
# Engines that have just started

Starting an engine goes through checks in order, and an engine comes out only if
all of them succeed.  It then knows no terminal and has counted nothing.
-/

namespace Handover

namespace Engine

variable {α : Type}

/-- The engine knows no terminal and has counted nothing. -/
structure Fresh (engine : Engine α) : Prop where
  store : engine.store = .empty engine.store.historyLength
  stats : engine.stats = 0

theorem Fresh.unknown {engine : Engine α} (fresh : engine.Fresh) (ue : UeId) :
    engine.store.state? ue = none := by
  rw [fresh.store]
  rfl

theorem Fresh.stateOf {engine : Engine α} (fresh : engine.Fresh) (ue : UeId) :
    engine.store.stateOf ue = .fresh ue engine.store.historyLength :=
  Store.stateOf_of_unknown (fresh.unknown ue)

variable [Scalar α]

/-- What a configuration has passed when there is an engine, and what the engine
consists of. -/
theorem start_eq_ok {config : EngineConfig α} {engine : Engine α}
    (started : (start config).result = .ok engine) :
    ∃ interval strategy,
      config.validate = .ok () ∧
      HandoverStrategy.ofConfig config.algorithm = .ok strategy ∧
      (strategy.register .empty interval).result = .ok () ∧
      engine =
        { strategy := (strategy.register .empty interval).strategy
          configurator := (strategy.register .empty interval).configurator
          store := .empty strategy.historyLength
          stats := .zero } := by
  have built : build config = .ok engine := by
    unfold start at started
    split at started
    · cases started
    · next result =>
      cases started
      exact result
  rcases exists_of_bind_eq_ok built with ⟨_, valid, built⟩
  rcases exists_of_bind_eq_ok built with ⟨interval, _, built⟩
  rcases exists_of_bind_eq_ok built with ⟨strategy, chosen, built⟩
  rcases exists_of_bind_eq_ok built with ⟨_, registered, built⟩
  cases built
  exact ⟨interval, strategy, valid, chosen, registered, rfl⟩

theorem fresh_of_start {config : EngineConfig α} {engine : Engine α}
    (started : (start config).result = .ok engine) : engine.Fresh := by
  rcases start_eq_ok started with ⟨interval, strategy, _, _, _, rfl⟩
  exact ⟨rfl, rfl⟩

end Engine

end Handover
