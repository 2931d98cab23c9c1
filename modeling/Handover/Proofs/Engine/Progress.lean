import Handover.Proofs.Engine.Confined
import Handover.Proofs.Inference.Selection

/-!
# Progress of handovers under requests

Which progress a request makes follows from what the engine knows of its
terminal.  The counters, the calls to the host and the pending target change as
that progress says.
-/

namespace Handover

/-! ## Evaluation leaves handovers alone -/

/-- Two states of a terminal agree on its handover. -/
structure UeState.SameHandover (before after : UeState) : Prop where
  outstanding : after.outstanding = before.outstanding
  pendingTarget : after.pendingTarget = before.pendingTarget

theorem UeState.SameHandover.trans {first second third : UeState}
    (left : first.SameHandover second) (right : second.SameHandover third) :
    first.SameHandover third :=
  ⟨right.outstanding.trans left.outstanding, right.pendingTarget.trans left.pendingTarget⟩

theorem UeState.SameHandover.marked {before after : UeState} (same : before.SameHandover after)
    (marked : before.Marked) : after.Marked := by
  rw [UeState.Marked, same.outstanding, same.pendingTarget]
  exact marked

namespace Strategy

variable {α : Type}

theorem cacheResults_sameHandover (ue : UeId) (time : Instant) (results : List NeighbourResult)
    (store : Store) :
    (store.stateOf ue).SameHandover
      ((cacheResults (α := α) ue time results store).1.stateOf ue) := by
  induction results generalizing store with
  | nil => exact ⟨rfl, rfl⟩
  | cons result rest ih =>
      rw [cacheResults]
      split
      · refine UeState.SameHandover.trans ?_ (ih _)
        rw [Store.update, Store.change, Store.stateOf_put_self]
        exact ⟨rfl, rfl⟩
      · exact ih store

theorem discover_sameHandover (ue : UeId) (id : MeasId) (report : Report) (store : Store) :
    (store.stateOf ue).SameHandover
      ((discover (α := α) ue id report store).store.stateOf ue) := by
  unfold discover
  split
  · exact ⟨rfl, rfl⟩
  · exact cacheResults_sameHandover ue report.time report.neighbours store

theorem whenConsistent_sameHandover {ue : UeId} {store : Store} {evaluation : Evaluation α}
    (same : (store.stateOf ue).SameHandover (evaluation.store.stateOf ue))
    (servingRsrq threshold : Level) :
    (store.stateOf ue).SameHandover
      ((whenConsistent ue servingRsrq threshold store evaluation).store.stateOf ue) := by
  unfold whenConsistent
  split
  · exact ⟨rfl, rfl⟩
  · exact same

theorem FuzzyInference.evaluate_sameHandover [Scalar α] (strategy : FuzzyInference α)
    (ue : UeId) (id : MeasId) (report : Report) (store : Store) :
    (store.stateOf ue).SameHandover
      ((strategy.evaluate ue id report store).store.stateOf ue) := by
  unfold FuzzyInference.evaluate
  split
  · exact discover_sameHandover ue id report store
  · split
    · exact ⟨rfl, rfl⟩
    · apply whenConsistent_sameHandover
      rw [FuzzyInference.infer, Store.stateOf_put_self]
      exact ⟨Inference.Evaluator.selectTarget_outstanding _ _ _ _,
        Inference.Evaluator.selectTarget_pendingTarget _ _ _ _⟩

end Strategy

theorem HandoverStrategy.evaluate_sameHandover {α : Type} [Scalar α]
    (strategy : HandoverStrategy α) (ue : UeId) (id : MeasId) (report : Report) (store : Store) :
    (store.stateOf ue).SameHandover
      ((strategy.evaluate ue id report store).store.stateOf ue) := by
  cases strategy with
  | noOp => exact ⟨rfl, rfl⟩
  | bestNeighbour part =>
      simp only [evaluate, Strategy.BestNeighbour.evaluate]
      split
      · exact ⟨rfl, rfl⟩
      · split <;> exact ⟨rfl, rfl⟩
  | offset part =>
      simp only [evaluate, Strategy.Offset.evaluate]
      split
      · exact Strategy.discover_sameHandover ue id report store
      · split
        · exact ⟨rfl, rfl⟩
        · refine Strategy.whenConsistent_sameHandover ?_ _ _
          exact ⟨rfl, rfl⟩
  | typeOne part => exact part.evaluate_sameHandover ue id report store
  | typeTwo part => exact part.evaluate_sameHandover ue id report store

/-- Where a terminal is according to an outcome: on the target of the outstanding
handover, if that has completed. -/
def UeState.landing? (state : UeState) : HandoverOutcome → Option CellId
  | .completed => if state.outstanding then state.pendingTarget else none
  | .failed => none

/-! ## Operations of the engine -/

namespace Engine

variable {α : Type}

theorem offer_of_none (engine : Engine α) {decision : Decision}
    (absent : decision.target = none) : engine.offer decision = ⟨engine, .abstained, [], []⟩ := by
  simp [offer, Decision.isHandover, absent]

theorem offer_of_some (engine : Engine α) {decision : Decision} {target : CellId}
    (present : decision.target = some target) :
    engine.offer decision =
      let offered := Dispatch.offer engine.stats (engine.store.stateOf decision.ue) decision
      ⟨{ engine with
          stats := offered.1.stats
          store := engine.store.put decision.ue offered.1.state },
        offered.1.answer, [], offered.2⟩ := by
  simp [offer, Decision.isHandover, present]

theorem offer_stats (engine : Engine α) (decision : Decision) :
    (engine.offer decision).engine.stats = engine.stats +
      (Progress.ofOffer (engine.store.stateOf decision.ue) decision.target).counted := by
  cases target : decision.target with
  | none =>
      rw [offer_of_none engine target]
      exact (add_zero engine.stats).symm
  | some cell =>
      rw [offer_of_some engine target, ← target]
      exact Dispatch.offer_stats engine.stats _ decision

theorem offer_calls (engine : Engine α) (decision : Decision) :
    (engine.offer decision).calls =
      (Progress.ofOffer (engine.store.stateOf decision.ue) decision.target).calls
        decision.ue := by
  cases target : decision.target with
  | none =>
      rw [offer_of_none engine target]
      rfl
  | some cell =>
      rw [offer_of_some engine target, ← target]
      exact Dispatch.offer_calls engine.stats _ decision

theorem offer_suppressed (engine : Engine α) (decision : Decision) :
    (engine.offer decision).answer = .suppressed ↔
      Progress.ofOffer (engine.store.stateOf decision.ue) decision.target = .withheld := by
  cases target : decision.target with
  | none =>
      rw [offer_of_none engine target]
      exact ⟨nofun, nofun⟩
  | some cell =>
      rw [offer_of_some engine target, ← target]
      exact Dispatch.offer_suppressed engine.stats _ decision

/-- What an offer does to the handover of its terminal. -/
theorem offer_pending (engine : Engine α) (decision : Decision)
    (marked : (engine.store.stateOf decision.ue).Marked) :
    ((engine.offer decision).engine.store.stateOf decision.ue).pendingTarget =
        (Progress.ofOffer (engine.store.stateOf decision.ue) decision.target).next
          (engine.store.stateOf decision.ue).pendingTarget ∧
      ((engine.offer decision).engine.store.stateOf decision.ue).Marked := by
  cases target : decision.target with
  | none =>
      rw [offer_of_none engine target]
      exact ⟨rfl, marked⟩
  | some cell =>
      rw [offer_of_some engine target, ← target]
      simp only [Store.stateOf_put_self]
      exact ⟨Dispatch.offer_pending engine.stats _ decision,
        Dispatch.offer_marked engine.stats marked decision⟩

/-- After an acknowledgement nothing is outstanding, and nothing else has
changed. -/
theorem acknowledge_stateOf (engine : Engine α) (ue : UeId) (outcome : HandoverOutcome) :
    (engine.acknowledge ue outcome).engine.store.stateOf ue =
      Dispatch.settle (engine.store.stateOf ue) := by
  unfold acknowledge
  cases known : engine.store.state? ue with
  | none =>
      rw [Store.stateOf_of_unknown known]
      rfl
  | some state =>
      rw [Store.stateOf_of_state? known]
      simp only [Store.stateOf_put_self, Dispatch.acknowledge_state]

/-- After an outcome nothing is outstanding, and the terminal is served where it
landed. -/
theorem conclude_stateOf (engine : Engine α) (ue : UeId) (outcome : HandoverOutcome)
    (time : Instant) :
    (engine.conclude ue outcome time).engine.store.stateOf ue =
      match (engine.store.stateOf ue).landing? outcome with
      | some target => (Dispatch.settle (engine.store.stateOf ue)).setServing target time
      | none => Dispatch.settle (engine.store.stateOf ue) := by
  unfold conclude
  cases known : engine.store.state? ue with
  | none =>
      rw [Store.stateOf_of_unknown known]
      cases outcome <;> rfl
  | some state =>
      rw [Store.stateOf_of_state? known]
      simp only [Store.stateOf_put_self, Dispatch.acknowledge_state, Dispatch.acknowledge_answer,
        UeState.landing?]
      cases outcome <;> cases state.outstanding <;> cases state.pendingTarget <;> rfl

variable [Scalar α]

theorem evaluate_stats (engine : Engine α) (ue : UeId) (id : MeasId) (report : Report) :
    (engine.evaluate ue id report).engine.stats = engine.stats := by
  simp only [evaluate]
  split <;> rfl

theorem evaluate_calls (engine : Engine α) (ue : UeId) (id : MeasId) (report : Report) :
    (engine.evaluate ue id report).calls = [] := by
  simp only [evaluate]
  split <;> rfl

theorem evaluate_sameHandover (engine : Engine α) (ue : UeId) (id : MeasId) (report : Report) :
    (engine.store.stateOf ue).SameHandover
      ((engine.evaluate ue id report).engine.store.stateOf ue) := by
  have same := engine.strategy.evaluate_sameHandover ue id report engine.store
  simp only [evaluate]
  split <;> exact same

/-- What a request does to the handover of its terminal. -/
def progress (engine : Engine α) : Request → Progress
  | .report ue id report =>
    .ofOffer (engine.store.stateOf ue) (engine.evaluate ue id report).answer.target
  | .evaluate _ _ _ => .idle
  | .offer decision => .ofOffer (engine.store.stateOf decision.ue) decision.target
  | .acknowledge ue outcome => .ofEnd (engine.store.stateOf ue) (.concluded outcome)
  | .connect ue _ _ => .ofEnd (engine.store.stateOf ue) .released
  | .conclude ue outcome _ => .ofEnd (engine.store.stateOf ue) (.concluded outcome)
  | .remove ue => .ofEnd (engine.store.stateOf ue) .removed

theorem progress_alike {request : Request} {first second : Engine α}
    (alike : Alike request.ue first second) : first.progress request = second.progress request := by
  have states := alike.stateOf
  cases request with
  | report ue id report =>
      have answers := (confined_evaluate ue id report).answer alike
      simp only [progress, answers]
      exact congrArg (fun state => Progress.ofOffer state _) states
  | evaluate ue id report => rfl
  | offer decision => exact congrArg (fun state => Progress.ofOffer state _) states
  | acknowledge ue outcome => exact congrArg (fun state => Progress.ofEnd state _) states
  | connect ue cell time => exact congrArg (fun state => Progress.ofEnd state _) states
  | conclude ue outcome time => exact congrArg (fun state => Progress.ofEnd state _) states
  | remove ue => exact congrArg (fun state => Progress.ofEnd state _) states

theorem progress_applies (engine : Engine α) (request : Request) :
    (engine.progress request).Applies (engine.store.stateOf request.ue).outstanding := by
  cases request with
  | report ue id report => exact Progress.ofOffer_applies _ _
  | evaluate ue id report => trivial
  | offer decision => exact Progress.ofOffer_applies _ _
  | acknowledge ue outcome => exact Progress.ofEnd_applies _ rfl
  | connect ue cell time => exact Progress.ofEnd_applies _ rfl
  | conclude ue outcome time => exact Progress.ofEnd_applies _ rfl
  | remove ue => exact Progress.ofEnd_applies _ rfl

/-- After its evaluation, the decision on a report is offered as if the terminal
were still in the state before. -/
theorem ofOffer_evaluate (engine : Engine α) (ue : UeId) (id : MeasId) (report : Report) :
    Progress.ofOffer
        ((engine.evaluate ue id report).engine.store.stateOf
          (engine.evaluate ue id report).answer.ue)
        (engine.evaluate ue id report).answer.target =
      engine.progress (.report ue id report) := by
  have same := (engine.evaluate_sameHandover ue id report).outstanding
  rw [evaluate_ue, progress]
  cases (engine.evaluate ue id report).answer.target with
  | none => rfl
  | some target => rw [Progress.ofOffer, Progress.ofOffer, same]

/-- Every operation adds to the counters what its progress says. -/
theorem handle_stats (engine : Engine α) (request : Request) :
    (engine.handle request).engine.stats =
      engine.stats + (engine.progress request).counted := by
  cases request with
  | report ue id report =>
      change ((engine.evaluate ue id report).engine.offer _).engine.stats = _
      rw [offer_stats, evaluate_stats, ofOffer_evaluate]
  | evaluate ue id report =>
      change (engine.evaluate ue id report).engine.stats = _
      rw [evaluate_stats]
      exact (add_zero engine.stats).symm
  | offer decision => exact engine.offer_stats decision
  | acknowledge ue outcome =>
      simp only [handle, acknowledge, Step.map, progress]
      cases known : engine.store.state? ue with
      | none =>
          rw [Store.stateOf_of_unknown known]
          exact (add_zero engine.stats).symm
      | some state =>
          rw [Store.stateOf_of_state? known]
          exact Dispatch.acknowledge_stats engine.stats state outcome
  | connect ue cell time => exact Dispatch.release_stats engine.stats _
  | conclude ue outcome time =>
      simp only [handle, conclude, Step.map, progress]
      cases known : engine.store.state? ue with
      | none =>
          rw [Store.stateOf_of_unknown known]
          exact (add_zero engine.stats).symm
      | some state =>
          rw [Store.stateOf_of_state? known]
          exact Dispatch.acknowledge_stats engine.stats state outcome
  | remove ue =>
      simp only [handle, remove, Step.map, progress, Progress.ofEnd]
      split <;> exact (add_zero engine.stats).symm

/-- Every operation asks the host for what its progress says. -/
theorem handle_calls (engine : Engine α) (request : Request) :
    (engine.handle request).calls = (engine.progress request).calls request.ue := by
  cases request with
  | report ue id report =>
      change (engine.evaluate ue id report).calls ++
        ((engine.evaluate ue id report).engine.offer _).calls = _
      rw [evaluate_calls, offer_calls, ofOffer_evaluate, evaluate_ue]
      rfl
  | evaluate ue id report => exact engine.evaluate_calls ue id report
  | offer decision => exact engine.offer_calls decision
  | acknowledge ue outcome =>
      rw [progress, Progress.ofEnd_calls _ rfl]
      simp only [handle, acknowledge, Step.map]
      split <;> rfl
  | connect ue cell time => exact (Progress.ofEnd_calls _ rfl).symm
  | conclude ue outcome time =>
      rw [progress, Progress.ofEnd_calls _ rfl]
      simp only [handle, conclude, Step.map]
      split <;> rfl
  | remove ue => exact (Progress.ofEnd_calls _ rfl).symm

/-- An answer says that a decision was held back exactly if it was. -/
theorem handle_suppressed (engine : Engine α) (request : Request) :
    (engine.handle request).answer = .trigger .suppressed ↔
      engine.progress request = .withheld := by
  have ended : ∀ state {progress}, progress ≠ .withheld →
      Progress.ofEnd state progress ≠ .withheld :=
    fun state _ distinct => Progress.ofEnd_ne state nofun distinct
  cases request with
  | report ue id report =>
      rw [← ofOffer_evaluate, ← offer_suppressed]
      exact ⟨Answer.trigger.inj, congrArg Answer.trigger⟩
  | evaluate ue id report => exact ⟨nofun, nofun⟩
  | offer decision =>
      rw [progress, ← offer_suppressed]
      exact ⟨Answer.trigger.inj, congrArg Answer.trigger⟩
  | acknowledge ue outcome => exact ⟨nofun, fun held => absurd held (ended _ nofun)⟩
  | connect ue cell time => exact ⟨nofun, fun held => absurd held (ended _ nofun)⟩
  | conclude ue outcome time => exact ⟨nofun, fun held => absurd held (ended _ nofun)⟩
  | remove ue => exact ⟨nofun, fun held => absurd held (ended _ nofun)⟩

/-- What an operation does to the handover of its terminal: the pending target
changes as the progress says, and the mark goes with it. -/
theorem handle_pending (engine : Engine α) (request : Request)
    (marked : (engine.store.stateOf request.ue).Marked) :
    ((engine.handle request).engine.store.stateOf request.ue).pendingTarget =
        (engine.progress request).next (engine.store.stateOf request.ue).pendingTarget ∧
      ((engine.handle request).engine.store.stateOf request.ue).Marked := by
  cases request with
  | report ue id report =>
      have same := engine.evaluate_sameHandover ue id report
      have offered := (engine.evaluate ue id report).engine.offer_pending
        (engine.evaluate ue id report).answer
      rw [ofOffer_evaluate, evaluate_ue, same.pendingTarget] at offered
      exact offered (same.marked marked)
  | evaluate ue id report =>
      have same := engine.evaluate_sameHandover ue id report
      exact ⟨same.pendingTarget, same.marked marked⟩
  | offer decision => exact engine.offer_pending decision marked
  | acknowledge ue outcome =>
      simp only [handle, Step.map, progress, Request.ue] at marked ⊢
      rw [Dispatch.next_ofEnd marked rfl, acknowledge_stateOf]
      exact ⟨rfl, rfl⟩
  | connect ue cell time =>
      simp only [handle, connect, Step.map, progress, Request.ue] at marked ⊢
      rw [Dispatch.next_ofEnd marked rfl, Store.stateOf_put_self,
        Dispatch.release_state engine.stats marked]
      exact ⟨rfl, rfl⟩
  | conclude ue outcome time =>
      simp only [handle, Step.map, progress, Request.ue] at marked ⊢
      rw [Dispatch.next_ofEnd marked rfl, conclude_stateOf]
      split <;> exact ⟨rfl, rfl⟩
  | remove ue =>
      simp only [handle, remove, Step.map, progress, Request.ue] at marked ⊢
      rw [Dispatch.next_ofEnd marked rfl, Store.stateOf_remove_self]
      exact ⟨rfl, rfl⟩

end Engine

end Handover
