import Handover.Proofs.Engine.Progress
import Handover.Proofs.Engine.Start
import Handover.Proofs.Strategy.Delay

/-!
# Runs at a later time

An engine that is told everything later by one span answers the same, warns of the
same and asks its host for the same.  Every time that it keeps is one that it was told,
so its state differs in those times only, each of them later by that span.
-/

namespace Handover

open UeState

namespace Engine

variable {α : Type}

/-- The engine with all its times moved. -/
def delay (span : Nat) (engine : Engine α) : Engine α :=
  { engine with store := engine.store.delay span }

/-- The step with the times in its engine moved. -/
def Step.delay {ρ : Type} (span : Nat) (step : Step α ρ) : Step α ρ :=
  { step with engine := step.engine.delay span }

namespace Request

/-- The request told later. -/
def delay (span : Nat) : Request → Request
  | report ue id told => .report ue id (told.delay span)
  | evaluate ue id told => .evaluate ue id (told.delay span)
  | offer decision => .offer decision
  | acknowledge ue outcome => .acknowledge ue outcome
  | connect ue cell time => .connect ue cell (time.plus span)
  | conclude ue outcome time => .conclude ue outcome (time.plus span)
  | remove ue => .remove ue

/-- The time that a request tells. -/
def time? : Request → Option Instant
  | report _ _ told => some told.time
  | evaluate _ _ told => some told.time
  | offer _ => none
  | acknowledge _ _ => none
  | connect _ _ time => some time
  | conclude _ _ time => some time
  | remove _ => none

end Request

end Engine

/-! ## Dispatch -/

namespace Dispatch

/-- The result of a dispatch operation with the times in its state moved. -/
def delay {ρ : Type} (span : Nat) (dispatch : Dispatch ρ) : Dispatch ρ :=
  { dispatch with state := dispatch.state.delay span }

variable (span : Nat) (stats : DispatchStats) (state : UeState)

theorem offer_delay (decision : Decision) :
    offer stats (state.delay span) decision =
      ((offer stats state decision).1.delay span, (offer stats state decision).2) := by
  rcases state with ⟨self, neighbours, outstanding, pending, cell, since, history, length⟩
  rcases decision with ⟨ue, target⟩
  cases target with
  | none => rfl
  | some target => cases outstanding <;> rfl

theorem acknowledge_delay {α : Type} (outcome : HandoverOutcome) :
    acknowledge (α := α) stats (state.delay span) outcome =
      ((acknowledge (α := α) stats state outcome).1.delay span,
        (acknowledge stats state outcome).2) := by
  rcases state with ⟨self, neighbours, outstanding, pending, cell, since, history, length⟩
  cases outstanding <;> cases outcome <;> rfl

theorem release_delay : release stats (state.delay span) = (release stats state).delay span := by
  rcases state with ⟨self, neighbours, outstanding, pending, cell, since, history, length⟩
  cases outstanding <;> rfl

variable {state} {known : Instant → Prop} (dated : state.Dated known)
include dated

theorem offer_dated (decision : Decision) : (offer stats state decision).1.state.Dated known := by
  rw [offer]
  cases decision.target with
  | none => exact dated
  | some target =>
      dsimp only
      split
      · exact dated
      · exact dated.withHandover _ _

theorem acknowledge_dated {α : Type} (outcome : HandoverOutcome) :
    (acknowledge (α := α) stats state outcome).1.state.Dated known := by
  rw [acknowledge_state]
  exact dated.withHandover _ _

theorem release_dated : (release stats state).state.Dated known := by
  rw [release]
  split
  · exact dated.withHandover _ _
  · exact dated

end Dispatch

namespace Engine

variable {α : Type} [Scalar α]

/-! ## Moving the times -/

section Moves

variable (span : Nat) (engine : Engine α)

omit [Scalar α] in
theorem offer_delay (decision : Decision) :
    (engine.delay span).offer decision = (engine.offer decision).delay span := by
  simp only [offer, delay, Store.stateOf_delay, Dispatch.offer_delay, Dispatch.delay,
    Store.put_delay]
  split <;> rfl

omit [Scalar α] in
theorem acknowledge_delay (ue : UeId) (outcome : HandoverOutcome) :
    (engine.delay span).acknowledge ue outcome = (engine.acknowledge ue outcome).delay span := by
  simp only [acknowledge, delay, Store.state?_delay]
  cases engine.store.state? ue with
  | none => rfl
  | some state =>
      simp only [Option.map_some, Dispatch.acknowledge_delay, Dispatch.delay, Store.put_delay]
      rfl

omit [Scalar α] in
theorem connect_delay (ue : UeId) (cell : CellId) (time : Instant) :
    (engine.delay span).connect ue cell (time.plus span) =
      (engine.connect ue cell time).delay span := by
  simp only [connect, delay, Store.stateOf_delay, Dispatch.release_delay, Dispatch.delay,
    setServing_delay, Store.put_delay]
  rfl

omit [Scalar α] in
theorem conclude_delay (ue : UeId) (outcome : HandoverOutcome) (time : Instant) :
    (engine.delay span).conclude ue outcome (time.plus span) =
      (engine.conclude ue outcome time).delay span := by
  simp only [conclude, delay, Store.state?_delay]
  cases engine.store.state? ue with
  | none => rfl
  | some state =>
      have pending : (state.delay span).pendingTarget = state.pendingTarget := rfl
      simp only [Option.map_some, Dispatch.acknowledge_delay, Dispatch.delay, pending]
      rcases Dispatch.acknowledge (α := α) engine.stats state outcome with
        ⟨⟨stats, after, answer⟩, warnings⟩
      dsimp only
      split <;> simp only [setServing_delay, Store.put_delay] <;> rfl

omit [Scalar α] in
theorem remove_delay (ue : UeId) :
    (engine.delay span).remove ue = (engine.remove ue).delay span := by
  simp only [remove, delay, Store.remove_delay]
  rfl

variable {span}

theorem evaluate_delay (ue : UeId) (id : MeasId) {report : Report}
    (room : report.time.HasRoom span) :
    (engine.delay span).evaluate ue id (report.delay span) =
      (engine.evaluate ue id report).delay span := by
  simp only [evaluate, delay, engine.strategy.evaluate_delay ue id room]
  simp only [Strategy.Evaluation.delay]
  split <;> rfl

theorem report_delay (ue : UeId) (id : MeasId) {report : Report}
    (room : report.time.HasRoom span) :
    (engine.delay span).report ue id (report.delay span) =
      (engine.report ue id report).delay span := by
  simp only [Engine.report, engine.evaluate_delay ue id room, Step.delay, offer_delay]

/-- A request told later to an engine with later times. -/
theorem handle_delay {request : Request} (room : ∀ time ∈ request.time?, time.HasRoom span) :
    (engine.delay span).handle (request.delay span) = (engine.handle request).delay span := by
  cases request with
  | report ue id report =>
      simp only [handle, Request.delay, engine.report_delay ue id (room _ rfl)]
      rfl
  | evaluate ue id report =>
      simp only [handle, Request.delay, engine.evaluate_delay ue id (room _ rfl)]
      rfl
  | offer decision =>
      simp only [handle, Request.delay, offer_delay]
      rfl
  | acknowledge ue outcome =>
      simp only [handle, Request.delay, acknowledge_delay]
      rfl
  | connect ue cell time =>
      simp only [handle, Request.delay, connect_delay]
      rfl
  | conclude ue outcome time =>
      simp only [handle, Request.delay, conclude_delay]
      rfl
  | remove ue =>
      simp only [handle, Request.delay, remove_delay]
      rfl

/-- Requests told later to an engine with later times. -/
theorem steps_delay {requests : List Request}
    (room : ∀ request ∈ requests, ∀ time ∈ request.time?, time.HasRoom span) :
    (engine.delay span).steps (requests.map (.delay span)) =
      (engine.steps requests).map (Step.delay span) := by
  induction requests generalizing engine with
  | nil => rfl
  | cons request rest ih =>
      rw [List.forall_mem_cons] at room
      rw [List.map_cons, steps_cons, steps_cons, List.map_cons, engine.handle_delay room.1]
      exact congrArg _ (ih _ room.2)

omit [Scalar α] in
theorem Fresh.delay {engine : Engine α} (fresh : engine.Fresh) (span : Nat) :
    engine.delay span = engine := by
  have nothing : engine.store.delay span = engine.store := by
    rw [fresh.store]
    rfl
  rw [Engine.delay, nothing]

end Moves

/-! ## Times that are kept -/

section Times

variable {engine : Engine α} {known : Instant → Prop} (dated : engine.store.Each (Dated known))
include dated

omit [Scalar α] in
theorem offer_dated (decision : Decision) :
    (engine.offer decision).engine.store.Each (Dated known) := by
  rw [offer]
  split
  · exact dated.put (Dispatch.offer_dated engine.stats (dated decision.ue) decision)
  · exact dated

theorem evaluate_dated (ue : UeId) (id : MeasId) {report : Report} (told : known report.time) :
    (engine.evaluate ue id report).engine.store.Each (Dated known) := by
  have kept := engine.strategy.evaluate_dated ue id dated told
  simp only [evaluate]
  split <;> exact kept

/-- A request adds its own time to those that are kept. -/
theorem handle_dated {request : Request} (told : ∀ time ∈ request.time?, known time) :
    (engine.handle request).engine.store.Each (Dated known) := by
  cases request with
  | report ue id report => exact offer_dated (evaluate_dated dated ue id (told _ rfl)) _
  | evaluate ue id report => exact evaluate_dated dated ue id (told _ rfl)
  | offer decision => exact offer_dated dated decision
  | acknowledge ue outcome =>
      simp only [handle, Step.map, acknowledge]
      split
      · exact dated
      · next state found =>
        have kept := dated ue
        rw [Store.stateOf_of_state? found] at kept
        exact dated.put (Dispatch.acknowledge_dated engine.stats kept outcome)
  | connect ue cell time =>
      exact dated.put ((Dispatch.release_dated engine.stats (dated ue)).setServing cell
        (told _ rfl))
  | conclude ue outcome time =>
      simp only [handle, Step.map, conclude]
      split
      · exact dated
      · next state found =>
        have kept := dated ue
        rw [Store.stateOf_of_state? found] at kept
        have settled := Dispatch.acknowledge_dated (α := α) engine.stats kept outcome
        refine dated.put ?_
        split
        · exact settled.setServing _ (told _ rfl)
        · exact settled
  | remove ue => exact dated.remove (dated_fresh known ue _)

/-- Every time that is kept after requests was told by one of them or kept before. -/
theorem steps_dated {requests : List Request}
    (told : ∀ request ∈ requests, ∀ time ∈ request.time?, known time) :
    ∀ step ∈ engine.steps requests, step.engine.store.Each (Dated known) := by
  induction requests generalizing engine with
  | nil => exact List.forall_mem_nil _
  | cons request rest ih =>
      rw [List.forall_mem_cons] at told
      have next := handle_dated dated told.1
      exact List.forall_mem_cons.mpr ⟨next, ih next told.2⟩

end Times

omit [Scalar α] in
theorem Fresh.dated {engine : Engine α} (fresh : engine.Fresh) (known : Instant → Prop) :
    engine.store.Each (Dated known) := by
  intro ue
  rw [fresh.stateOf]
  exact dated_fresh known ue _

end Engine

end Handover
