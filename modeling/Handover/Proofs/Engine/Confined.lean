import Handover.Proofs.Dispatch
import Handover.Proofs.Engine.Run
import Handover.Proofs.Strategy.Confined

/-!
# Requests are confined to one terminal

Every operation on the engine is about one terminal.  What it returns depends
only on what the engine knows of that terminal, and what is known of the others
stays as it is.  The counters are not part of this: they are written by every
operation and read by none.
-/

namespace Handover

namespace Engine

variable {α : Type}

/-! ## Operations on one terminal -/

/-- Two engines run the same strategy and know the same of a terminal. -/
structure Alike (ue : UeId) (first second : Engine α) : Prop where
  strategy : first.strategy = second.strategy
  store : Store.Alike ue first.store second.store

theorem Alike.trans {ue : UeId} {first second third : Engine α} (left : Alike ue first second)
    (right : Alike ue second third) : Alike ue first third :=
  ⟨left.strategy.trans right.strategy, left.store.trans right.store⟩

theorem Alike.symm {ue : UeId} {first second : Engine α} (alike : Alike ue first second) :
    Alike ue second first :=
  ⟨alike.strategy.symm, alike.store.symm⟩

theorem Alike.state? {ue : UeId} {first second : Engine α} (alike : Alike ue first second) :
    first.store.state? ue = second.store.state? ue :=
  alike.store.state?

theorem Alike.stateOf {ue : UeId} {first second : Engine α} (alike : Alike ue first second) :
    first.store.stateOf ue = second.store.stateOf ue :=
  alike.store.stateOf

/-- What an operation returns: its answer, the warnings and the calls to the
host. -/
def Step.response {ρ : Type} (step : Step α ρ) : ρ × List (Warning α) × List HostCall :=
  (step.answer, step.warnings, step.calls)

/-- An operation reads and writes the state of one terminal only. -/
structure Confined {ρ : Type} (ue : UeId) (operate : Engine α → Step α ρ) : Prop where
  strategy : ∀ engine, (operate engine).engine.strategy = engine.strategy
  differOnly : ∀ engine, Store.DifferOnly ue engine.store (operate engine).engine.store
  store : ∀ {first second}, Alike ue first second →
    Store.Alike ue (operate first).engine.store (operate second).engine.store
  response : ∀ {first second}, Alike ue first second →
    (operate first).response = (operate second).response

namespace Confined

variable {ρ τ : Type} {ue : UeId} {operate : Engine α → Step α ρ}

theorem alike (confined : Confined ue operate) {first second : Engine α}
    (same : Alike ue first second) : Alike ue (operate first).engine (operate second).engine where
  strategy := by rw [confined.strategy, confined.strategy, same.strategy]
  store := confined.store same

theorem answer (confined : Confined ue operate) {first second : Engine α}
    (same : Alike ue first second) : (operate first).answer = (operate second).answer :=
  congrArg Prod.fst (confined.response same)

theorem warnings (confined : Confined ue operate) {first second : Engine α}
    (same : Alike ue first second) : (operate first).warnings = (operate second).warnings :=
  congrArg (fun response => response.2.1) (confined.response same)

theorem calls (confined : Confined ue operate) {first second : Engine α}
    (same : Alike ue first second) : (operate first).calls = (operate second).calls :=
  congrArg (fun response => response.2.2) (confined.response same)

/-- Another terminal is known as before. -/
theorem others (confined : Confined ue operate) (engine : Engine α) {other : UeId}
    (distinct : other ≠ ue) : Alike other (operate engine).engine engine where
  strategy := confined.strategy engine
  store := ((confined.differOnly engine).alike distinct).symm

theorem map (confined : Confined ue operate) (f : ρ → τ) :
    Confined ue fun engine => (operate engine).map f where
  strategy := confined.strategy
  differOnly := confined.differOnly
  store := confined.store
  response same := by
    simp only [Step.response, Step.map, confined.answer same, confined.warnings same,
      confined.calls same]

end Confined

theorem confined_offer (decision : Decision) :
    Confined (α := α) decision.ue fun engine => engine.offer decision where
  strategy engine := by
    simp only [offer]
    split <;> rfl
  differOnly engine := by
    simp only [offer]
    split
    · exact Store.differOnly_put _ _ _
    · exact .refl _ _
  store {first second} same := by
    have counters := Dispatch.offer_counters first.stats second.stats
      (second.store.stateOf decision.ue) decision
    simp only [offer]
    split
    · simp only [same.stateOf, counters.1]
      exact same.store.put _
    · exact same.store
  response {first second} same := by
    have counters := Dispatch.offer_counters first.stats second.stats
      (second.store.stateOf decision.ue) decision
    simp only [offer, Step.response]
    split
    · simp only [same.stateOf, counters.2]
    · rfl

theorem confined_acknowledge (ue : UeId) (outcome : HandoverOutcome) :
    Confined (α := α) ue fun engine => engine.acknowledge ue outcome where
  strategy engine := by
    simp only [acknowledge]
    split <;> rfl
  differOnly engine := by
    simp only [acknowledge]
    split
    · exact .refl _ _
    · exact Store.differOnly_put _ _ _
  store {first second} same := by
    simp only [acknowledge, same.state?]
    split
    · exact same.store
    · next state _ =>
      rw [(Dispatch.acknowledge_counters first.stats second.stats state outcome).1]
      exact same.store.put _
  response {first second} same := by
    simp only [acknowledge, same.state?, Step.response]
    split
    · rfl
    · next state _ =>
      simp only [(Dispatch.acknowledge_counters first.stats second.stats state outcome).2]

theorem confined_connect (ue : UeId) (cell : CellId) (time : Instant) :
    Confined (α := α) ue fun engine => engine.connect ue cell time where
  strategy _ := rfl
  differOnly _ := Store.differOnly_put _ _ _
  store {first second} same := by
    simp only [connect, same.stateOf]
    rw [Dispatch.release_counters first.stats second.stats]
    exact same.store.put _
  response _ := rfl

theorem confined_conclude (ue : UeId) (outcome : HandoverOutcome) (time : Instant) :
    Confined (α := α) ue fun engine => engine.conclude ue outcome time where
  strategy engine := by
    simp only [conclude]
    split <;> rfl
  differOnly engine := by
    simp only [conclude]
    split
    · exact .refl _ _
    · exact Store.differOnly_put _ _ _
  store {first second} same := by
    simp only [conclude, same.state?]
    split
    · exact same.store
    · next state _ =>
      have counters :=
        Dispatch.acknowledge_counters (α := α) first.stats second.stats state outcome
      rw [counters.1, counters.2.1]
      exact same.store.put _
  response {first second} same := by
    simp only [conclude, same.state?, Step.response]
    split
    · rfl
    · next state _ =>
      simp only [(Dispatch.acknowledge_counters first.stats second.stats state outcome).2]

theorem confined_remove (ue : UeId) :
    Confined (α := α) ue fun engine => engine.remove ue where
  strategy _ := rfl
  differOnly _ := Store.differOnly_remove _ _
  store same := same.store.remove
  response _ := rfl

variable [Scalar α]

theorem confined_evaluate (ue : UeId) (id : MeasId) (report : Report) :
    Confined (α := α) ue fun engine => engine.evaluate ue id report where
  strategy engine := by
    simp only [evaluate]
    split <;> rfl
  differOnly engine := by
    simp only [evaluate]
    split <;> exact (engine.strategy.confined ue id report).differOnly engine.store
  store {first second} same := by
    have stores := (first.strategy.confined ue id report).alike same.store
    simp only [evaluate]
    rw [same.strategy] at stores ⊢
    split <;> split <;> exact stores
  response {first second} same := by
    have confined := second.strategy.confined ue id report
    simp only [evaluate, same.strategy, Step.response, confined.answer same.store,
      confined.warnings same.store]
    split <;> rfl

/-- A decision on a report is about the terminal of the report. -/
theorem evaluate_ue (engine : Engine α) (ue : UeId) (id : MeasId) (report : Report) :
    (engine.evaluate ue id report).answer.ue = ue := by
  simp only [evaluate]
  split
  · next decided => exact HandoverStrategy.evaluate_ue decided
  · rfl

/-- An evaluation followed by the offer of its decision. -/
theorem confined_report (ue : UeId) (id : MeasId) (report : Report) :
    Confined (α := α) ue fun engine => engine.report ue id report where
  strategy engine := by
    rw [Engine.report, (confined_offer _).strategy, (confined_evaluate ue id report).strategy]
  differOnly engine := by
    have offered := (confined_offer (engine.evaluate ue id report).answer).differOnly
      (engine.evaluate ue id report).engine
    rw [evaluate_ue] at offered
    exact ((confined_evaluate ue id report).differOnly engine).trans offered
  store {first second} same := by
    have evaluated := (confined_evaluate ue id report).alike same
    have offered := confined_offer (α := α) (second.evaluate ue id report).answer
    rw [evaluate_ue] at offered
    simp only [Engine.report, (confined_evaluate ue id report).answer same]
    exact offered.store evaluated
  response {first second} same := by
    have evaluated := confined_evaluate (α := α) ue id report
    have offered := confined_offer (α := α) (second.evaluate ue id report).answer
    rw [evaluate_ue] at offered
    simp only [Engine.report, Step.response, evaluated.answer same, evaluated.warnings same,
      evaluated.calls same, offered.answer (evaluated.alike same),
      offered.warnings (evaluated.alike same), offered.calls (evaluated.alike same)]

/-- Every operation reads and writes the state of the terminal that it is about
and of no other. -/
theorem confined_handle (request : Request) :
    Confined (α := α) request.ue fun engine => engine.handle request := by
  cases request with
  | report ue id report => exact (confined_report ue id report).map _
  | evaluate ue id report => exact (confined_evaluate ue id report).map _
  | offer decision => exact (confined_offer decision).map _
  | acknowledge ue outcome => exact (confined_acknowledge ue outcome).map _
  | connect ue cell time => exact (confined_connect ue cell time).map fun _ => Answer.none
  | conclude ue outcome time => exact (confined_conclude ue outcome time).map fun _ => Answer.none
  | remove ue => exact (confined_remove ue).map fun _ => Answer.none

theorem stateOf_handle_of_ne (engine : Engine α) {request : Request} {ue : UeId}
    (distinct : request.ue ≠ ue) :
    (engine.handle request).engine.store.stateOf ue = engine.store.stateOf ue :=
  ((confined_handle request).others engine (Ne.symm distinct)).stateOf

end Engine

end Handover
