import Handover.Proofs.Engine.Marks
import Handover.Proofs.Table

/-!
# Accounting for handovers

Every handover that the host is asked for ends up in exactly one place: it is
still outstanding, its outcome is known, a new connection has released it, or it
was forgotten with its terminal.  The counters, the marks of the terminals and
the calls to the host agree on that after any requests.
-/

namespace Handover

namespace HostCall

/-- The call starts a handover. -/
def isTrigger : HostCall → Bool
  | subscribe _ _ => false
  | trigger _ _ => true

end HostCall

namespace Progress

theorem countP_isTrigger (ue : UeId) (progress : Progress) :
    (progress.calls ue).countP HostCall.isTrigger = progress.counted.dispatched := by
  rcases progress with _ | _ | _ | ⟨_ | _⟩ | _ | _ <;> rfl

theorem length_calls (ue : UeId) (progress : Progress) :
    (progress.calls ue).length ≤ 1 := by
  cases progress <;> simp [calls]

theorem counted_suppressed (progress : Progress) :
    progress.counted.suppressed = (progress == withheld).toNat := by
  rcases progress with _ | _ | _ | ⟨_ | _⟩ | _ | _ <;> rfl

end Progress

/-- Number of terminals with an outstanding handover. -/
def Store.outstandingCount (store : Store) : Nat :=
  store.ues.count UeState.outstanding

theorem Store.any_outstanding (store : Store) (ue : UeId) :
    (store.state? ue).any UeState.outstanding = (store.stateOf ue).outstanding := by
  cases known : store.state? ue with
  | none => simp [stateOf_of_unknown known, UeState.fresh]
  | some state => simp [stateOf_of_state? known]

/-- Stores that differ in one terminal count alike up to that terminal. -/
theorem Store.DifferOnly.outstandingCount {ue : UeId} {before after : Store}
    (change : DifferOnly ue before after) :
    after.outstandingCount + (before.stateOf ue).outstanding.toNat =
      before.outstandingCount + (after.stateOf ue).outstanding.toNat := by
  rw [← Store.any_outstanding, ← Store.any_outstanding]
  exact Table.count_of_others change.others UeState.outstanding

namespace Engine

variable {α : Type} [Scalar α]

/-! ## Counters -/

/-- Number of handovers that a run starts. -/
def triggerCount (engine : Engine α) (requests : List Request) : Nat :=
  (engine.calls requests).countP HostCall.isTrigger

/-- Number of answers in a run that tell of a decision held back. -/
def suppressedCount (engine : Engine α) (requests : List Request) : Nat :=
  (engine.steps requests).countP fun step => step.answer = .trigger .suppressed

/-- The request removes a terminal with an outstanding handover. -/
def abandons (engine : Engine α) : Request → Bool
  | .remove ue => (engine.store.state? ue).any UeState.outstanding
  | _ => false

/-- Number of requests in a run that remove a terminal with an outstanding
handover. -/
def abandonedCount (engine : Engine α) : List Request → Nat
  | [] => 0
  | request :: rest =>
    (engine.abandons request).toNat + (engine.handle request).engine.abandonedCount rest

theorem abandons_eq (engine : Engine α) (request : Request) :
    engine.abandons request = (engine.progress request == .removed) := by
  have offered : ∀ state target, (Progress.ofOffer state target == .removed) = false := by
    intro state target
    exact beq_false_of_ne (Progress.ofOffer_ne_removed state target)
  have ended : ∀ state (progress : Progress), progress ≠ .removed →
      (Progress.ofEnd state progress == .removed) = false := by
    intro state progress distinct
    exact beq_false_of_ne (Progress.ofEnd_ne state nofun distinct)
  cases request with
  | report ue id report => exact (offered _ _).symm
  | evaluate ue id report => rfl
  | offer decision => exact (offered _ _).symm
  | acknowledge ue outcome => exact (ended _ (.concluded outcome) nofun).symm
  | connect ue cell time => exact (ended _ .released nofun).symm
  | conclude ue outcome time => exact (ended _ (.concluded outcome) nofun).symm
  | remove ue =>
      rw [abandons, Store.any_outstanding, progress, Progress.ofEnd]
      cases (engine.store.stateOf ue).outstanding <;> rfl

theorem run_dispatched (engine : Engine α) (requests : List Request) :
    (engine.run requests).stats.dispatched =
      engine.stats.dispatched + engine.triggerCount requests := by
  induction requests generalizing engine with
  | nil => rfl
  | cons request rest ih =>
      rw [run_cons, ih, handle_stats, DispatchStats.add_def, triggerCount, triggerCount, calls_cons,
        List.countP_append, handle_calls, Progress.countP_isTrigger, Nat.add_assoc]

theorem run_suppressed (engine : Engine α) (requests : List Request) :
    (engine.run requests).stats.suppressed =
      engine.stats.suppressed + engine.suppressedCount requests := by
  induction requests generalizing engine with
  | nil => rfl
  | cons request rest ih =>
      have counted : (engine.progress request).counted.suppressed =
          if (engine.handle request).answer = .trigger .suppressed then 1 else 0 := by
        rw [Progress.counted_suppressed]
        by_cases held : engine.progress request = .withheld
        · rw [if_pos ((engine.handle_suppressed request).mpr held), held]
          rfl
        · rw [if_neg (mt (engine.handle_suppressed request).mp held), beq_false_of_ne held]
          rfl
      rw [run_cons, ih, handle_stats, DispatchStats.add_def, suppressedCount, suppressedCount,
        steps_cons, List.countP_cons, counted]
      simp only [decide_eq_true_eq]
      omega

/-- A request that starts a handover adds an outstanding one, and one that ends
or forgets a handover takes one away. -/
theorem Marked.balance {engine : Engine α} (marked : engine.Marked) (request : Request) :
    engine.store.outstandingCount + (engine.progress request).counted.dispatched =
      (engine.handle request).engine.store.outstandingCount +
        (engine.progress request).counted.completed +
        (engine.progress request).counted.failed +
        (engine.progress request).counted.released + (engine.abandons request).toNat := by
  have changed := ((confined_handle request).differOnly engine).outstandingCount
  have applies := engine.progress_applies request
  have before := marked request.ue
  have after := (marked.handle request) request.ue
  rw [UeState.Marked] at before after
  rw [marked.next request] at after
  rw [before] at applies
  have progressed := Progress.balance applies
  rw [before, after] at changed
  rw [abandons_eq]
  omega

theorem Marked.run_balance {engine : Engine α} (marked : engine.Marked)
    (requests : List Request) :
    (engine.run requests).stats.dispatched + engine.stats.completed + engine.stats.failed +
        engine.stats.released + engine.store.outstandingCount =
      engine.stats.dispatched + (engine.run requests).stats.completed +
        (engine.run requests).stats.failed + (engine.run requests).stats.released +
        (engine.run requests).store.outstandingCount + engine.abandonedCount requests := by
  induction requests generalizing engine with
  | nil =>
      rw [run_nil, abandonedCount]
      omega
  | cons request rest ih =>
      have step := marked.balance request
      have later := ih (marked.handle request)
      rw [run_cons, abandonedCount]
      simp only [handle_stats, DispatchStats.add_def] at later
      omega

/-! ## Books -/

/-- What the marks, the counters and the calls to the host say of each other
after a run. -/
structure Accounted (engine : Engine α) (requests : List Request) : Prop where
  /-- The mark of an outstanding handover stands exactly if a target is
  pending. -/
  marked : ∀ ue state, (engine.run requests).store.state? ue = some state →
    (state.outstanding = true ↔ state.pendingTarget.isSome = true)
  /-- The pending target is the last one that the host was asked for. -/
  pending : ∀ ue state target, (engine.run requests).store.state? ue = some state →
    state.pendingTarget = some target → (engine.targets requests ue).getLast? = some target
  /-- A request starts one handover at most. -/
  single : ∀ step ∈ engine.steps requests, step.calls.length ≤ 1
  /-- Between two handovers of a terminal there is a request that found the first
  one outstanding and cleared it. -/
  cleared : ∀ ue before first between second after earlier later,
    requests = before ++ first :: (between ++ second :: after) →
    .trigger ue earlier ∈ ((engine.run before).handle first).calls →
    .trigger ue later ∈ ((engine.run (before ++ first :: between)).handle second).calls →
    ∃ early request late, between = early ++ request :: late ∧
      (engine.run (before ++ first :: early)).Clears ue earlier request
  /-- Every handover that the host was asked for is counted. -/
  dispatched : (engine.run requests).stats.dispatched = engine.triggerCount requests
  /-- Every counted handover has ended, is outstanding or was forgotten. -/
  balanced : (engine.run requests).stats.dispatched =
    (engine.run requests).stats.completed + (engine.run requests).stats.failed +
      (engine.run requests).stats.released + (engine.run requests).store.outstandingCount +
      engine.abandonedCount requests
  /-- Every decision that was held back is counted. -/
  suppressed : (engine.run requests).stats.suppressed = engine.suppressedCount requests

theorem steps_calls_length (engine : Engine α) (requests : List Request) :
    ∀ step ∈ engine.steps requests, step.calls.length ≤ 1 := by
  induction requests generalizing engine with
  | nil =>
      intro step member
      exact absurd member List.not_mem_nil
  | cons request rest ih =>
      intro step member
      rw [steps_cons, List.mem_cons] at member
      rcases member with rfl | member
      · rw [handle_calls]
        exact Progress.length_calls _ _
      · exact ih _ step member

/-- Whatever is asked of an engine after its start, its books are in order. -/
theorem handovers_accounted {config : EngineConfig α} {engine : Engine α}
    (started : (start config).result = .ok engine) (requests : List Request) :
    engine.Accounted requests := by
  have fresh := fresh_of_start started
  have noneOutstanding : engine.store.outstandingCount = 0 := by
    rw [fresh.store]
    rfl
  have books := fresh.marked.run_balance requests
  rw [fresh.stats, noneOutstanding] at books
  constructor
  · intro ue state known
    have marked := fresh.marked.run requests ue
    rw [Store.stateOf_of_state? known, UeState.Marked] at marked
    rw [marked]
  · intro ue state target known pending
    rw [← Store.stateOf_of_state? known] at pending
    exact getLast?_targets fresh requests pending
  · exact engine.steps_calls_length requests
  · intro ue before first between second after earlier later _ starts restarts
    rw [run_append] at restarts
    obtain ⟨early, request, late, split, clears⟩ :=
      (fresh.marked.run before).clears_between between starts restarts
    rw [← run_append] at clears
    exact ⟨early, request, late, split, clears⟩
  · rw [run_dispatched, fresh.stats]
    exact Nat.zero_add _
  · simp only [DispatchStats.zero_def] at books
    omega
  · rw [run_suppressed, fresh.stats]
    exact Nat.zero_add _

theorem handovers_accounted_usual :
    let requests : List Request :=
      [.offer ⟨⟨1⟩, some ⟨5⟩⟩, .offer ⟨⟨1⟩, some ⟨6⟩⟩, .offer ⟨⟨2⟩, some ⟨5⟩⟩,
        .acknowledge ⟨2⟩ .failed, .remove ⟨1⟩, .offer ⟨⟨2⟩, some ⟨7⟩⟩, .connect ⟨2⟩ ⟨7⟩ ⟨40⟩]
    ∃ engine : Engine Float, (start .usual).result = .ok engine ∧
      (engine.run requests).stats = ⟨3, 1, 0, 1, 1⟩ ∧ engine.abandonedCount requests = 1 ∧
      engine.Accounted requests :=
  ⟨_, rfl, by decide, by decide, @handovers_accounted Float _ .usual _ rfl _⟩

end Engine

end Handover
