import Handover.Proofs.Engine.Progress
import Handover.Proofs.Engine.Start
import Mathlib.Data.List.Induction

/-!
# Marks of outstanding handovers

The mark of an outstanding handover and its pending target go together, and the
target is the last one that the host was asked for.  The mark stays until a
request takes it off, so there is such a request between any two handovers of a
terminal.
-/

namespace Handover

namespace HostCall

/-- The target, if a call starts a handover of the terminal. -/
def targetFor? (ue : UeId) : HostCall → Option CellId
  | subscribe _ _ => none
  | trigger other target => if other = ue then some target else none

end HostCall

namespace Progress

theorem filterMap_targetFor_of_ne {ue other : UeId} (distinct : other ≠ ue)
    (progress : Progress) :
    (progress.calls other).filterMap (HostCall.targetFor? ue) = [] := by
  cases progress <;> simp [calls, HostCall.targetFor?, distinct]

/-- A target that is pending afterwards was pending before unless its handover
starts. -/
theorem next_eq_some {pending : Option CellId} {target : CellId} {progress : Progress}
    (afterwards : progress.next pending = some target) :
    progress = triggered target ∨ (∀ ue, progress.calls ue = []) ∧ pending = some target := by
  cases progress with
  | triggered started =>
      cases afterwards
      exact .inl rfl
  | idle | withheld => exact .inr ⟨fun _ => rfl, afterwards⟩
  | concluded _ | released | removed => cases afterwards

/-- A call that starts a handover is due to a progress that does. -/
theorem trigger_mem_calls {ue other : UeId} {target : CellId} {progress : Progress}
    (member : .trigger ue target ∈ progress.calls other) :
    other = ue ∧ progress = triggered target := by
  cases progress with
  | triggered started =>
      rw [calls, List.mem_singleton] at member
      cases member
      exact ⟨rfl, rfl⟩
  | idle => cases member
  | withheld => cases member
  | concluded outcome => cases member
  | released => cases member
  | removed => cases member

end Progress

namespace Engine

variable {α : Type} [Scalar α]

/-! ## Marks -/

/-- For every terminal, the mark of an outstanding handover stands exactly if
there is a pending target. -/
def Marked (engine : Engine α) : Prop :=
  ∀ ue, (engine.store.stateOf ue).Marked

omit [Scalar α] in
theorem Fresh.marked {engine : Engine α} (fresh : engine.Fresh) : engine.Marked := by
  intro ue
  rw [fresh.stateOf ue]
  rfl

theorem Marked.handle {engine : Engine α} (marked : engine.Marked) (request : Request) :
    (engine.handle request).engine.Marked := by
  intro ue
  by_cases same : request.ue = ue
  · rw [← same]
    exact (engine.handle_pending request (marked request.ue)).2
  · rw [engine.stateOf_handle_of_ne same]
    exact marked ue

theorem Marked.run {engine : Engine α} (marked : engine.Marked) (requests : List Request) :
    (engine.run requests).Marked :=
  run_induction marked (fun _ request marked => marked.handle request) requests

theorem Marked.next {engine : Engine α} (marked : engine.Marked) (request : Request) :
    ((engine.handle request).engine.store.stateOf request.ue).pendingTarget =
      (engine.progress request).next (engine.store.stateOf request.ue).pendingTarget :=
  (engine.handle_pending request (marked request.ue)).1

/-- A target is pending after a request because the host was asked for it, or it
was pending before and the host was asked for nothing about the terminal. -/
theorem Marked.pending_cases {engine : Engine α} (marked : engine.Marked) {request : Request}
    {ue : UeId} {target : CellId}
    (pending : ((engine.handle request).engine.store.stateOf ue).pendingTarget = some target) :
    (engine.handle request).calls = [.trigger ue target] ∨
      (engine.handle request).calls.filterMap (HostCall.targetFor? ue) = [] ∧
        (engine.store.stateOf ue).pendingTarget = some target := by
  rw [handle_calls]
  by_cases same : request.ue = ue
  · subst same
    rw [marked.next request] at pending
    rcases Progress.next_eq_some pending with started | ⟨silent, before⟩
    · rw [started]
      exact .inl rfl
    · rw [silent]
      exact .inr ⟨rfl, before⟩
  · rw [engine.stateOf_handle_of_ne same] at pending
    exact .inr ⟨Progress.filterMap_targetFor_of_ne same _, pending⟩

/-! ## The last target -/

/-- Targets of the handovers of a terminal that a run starts, in order. -/
def targets (engine : Engine α) (requests : List Request) (ue : UeId) : List CellId :=
  (engine.calls requests).filterMap (HostCall.targetFor? ue)

theorem targets_concat (engine : Engine α) (requests : List Request) (request : Request)
    (ue : UeId) :
    engine.targets (requests ++ [request]) ue =
      engine.targets requests ue ++
        ((engine.run requests).handle request).calls.filterMap (HostCall.targetFor? ue) := by
  rw [targets, calls_append, List.filterMap_append, calls_cons, calls_nil, List.append_nil]
  rfl

/-- A pending target is the last one that the host was asked for. -/
theorem getLast?_targets {engine : Engine α} (fresh : engine.Fresh) (requests : List Request)
    {ue : UeId} {target : CellId}
    (pending : ((engine.run requests).store.stateOf ue).pendingTarget = some target) :
    (engine.targets requests ue).getLast? = some target := by
  induction requests using List.reverseRecOn with
  | nil =>
      rw [run_nil, fresh.stateOf ue] at pending
      cases pending
  | append_singleton requests request ih =>
      rw [run_append, run_cons, run_nil] at pending
      rw [targets_concat]
      rcases (fresh.marked.run requests).pending_cases pending with started | ⟨silent, before⟩
      · have last : [HostCall.trigger ue target].filterMap (HostCall.targetFor? ue) = [target] := by
          simp [HostCall.targetFor?]
        rw [started, last, List.getLast?_concat]
      · rw [silent, List.append_nil]
        exact ih before

/-! ## Between two handovers -/

/-- The request is one that takes the mark off: an outcome, a new connection or
the removal of the terminal. -/
def Request.endsHandover : Request → Bool
  | acknowledge _ _ => true
  | connect _ _ _ => true
  | conclude _ _ _ => true
  | remove _ => true
  | _ => false

/-- A request that finds the handover of a terminal to a target outstanding and
takes the mark off. -/
structure Clears (engine : Engine α) (ue : UeId) (target : CellId) (request : Request) :
    Prop where
  about : request.ue = ue
  ends : request.endsHandover = true
  outstanding : ∃ state, engine.store.state? ue = some state ∧ state.outstanding = true ∧
    state.pendingTarget = some target
  cleared : ∀ state, (engine.handle request).engine.store.state? ue = some state →
    state.outstanding = false ∧ state.pendingTarget = none

omit [Scalar α] in
theorem Marked.outstanding {engine : Engine α} (marked : engine.Marked) {ue : UeId}
    {target : CellId} (pending : (engine.store.stateOf ue).pendingTarget = some target) :
    (engine.store.stateOf ue).outstanding = true := by
  rw [marked ue, pending]
  rfl

/-- While a target is pending, a request about the terminal keeps it or leaves
none pending. -/
theorem Marked.pending_or_none {engine : Engine α} (marked : engine.Marked) {request : Request}
    {target : CellId}
    (pending : (engine.store.stateOf request.ue).pendingTarget = some target) :
    ((engine.handle request).engine.store.stateOf request.ue).pendingTarget = some target ∨
      ((engine.handle request).engine.store.stateOf request.ue).pendingTarget = none := by
  have applies := engine.progress_applies request
  rw [marked.outstanding pending] at applies
  rw [marked.next request]
  cases progress : engine.progress request with
  | triggered started =>
      rw [progress] at applies
      cases applies
  | idle | withheld => exact .inl pending
  | concluded _ | released | removed => exact .inr rfl

/-- Only some requests change the pending target of an outstanding handover. -/
theorem Marked.endsHandover {engine : Engine α} (marked : engine.Marked) {request : Request}
    {target : CellId}
    (pending : (engine.store.stateOf request.ue).pendingTarget = some target)
    (changed : ((engine.handle request).engine.store.stateOf request.ue).pendingTarget ≠
      some target) : request.endsHandover = true := by
  have offered := Progress.next_ofOffer (marked.outstanding pending)
  rw [marked.next request] at changed
  cases request with
  | report ue id report => exact absurd ((offered _ _).trans pending) changed
  | evaluate ue id report => exact absurd pending changed
  | offer decision => exact absurd ((offered _ _).trans pending) changed
  | acknowledge ue outcome => rfl
  | connect ue cell time => rfl
  | conclude ue outcome time => rfl
  | remove ue => rfl

/-- A request after which another target is pending, or none, while one was
outstanding, has cleared it. -/
theorem Marked.clears {engine : Engine α} (marked : engine.Marked) {ue : UeId}
    {target : CellId} {request : Request}
    (pending : (engine.store.stateOf ue).pendingTarget = some target)
    (changed : ((engine.handle request).engine.store.stateOf ue).pendingTarget ≠ some target) :
    engine.Clears ue target request := by
  have same : request.ue = ue := by
    by_cases same : request.ue = ue
    · exact same
    · rw [engine.stateOf_handle_of_ne same] at changed
      exact absurd pending changed
  subst same
  have outstanding := marked.outstanding pending
  have nonePending := (marked.pending_or_none pending).resolve_left changed
  constructor
  · rfl
  · exact marked.endsHandover pending changed
  · rcases Store.exists_of_outstanding outstanding with ⟨state, known, rfl⟩
    exact ⟨_, known, outstanding, pending⟩
  · intro state known
    have afterwards := (marked.handle request) request.ue
    rw [UeState.Marked, nonePending] at afterwards
    rw [Store.stateOf_of_state? known] at afterwards nonePending
    exact ⟨afterwards, nonePending⟩

/-- A pending target stays until a request clears it. -/
theorem Marked.exists_clears {engine : Engine α} (marked : engine.Marked) {ue : UeId}
    {target : CellId} (requests : List Request)
    (pending : (engine.store.stateOf ue).pendingTarget = some target)
    (settled : ((engine.run requests).store.stateOf ue).outstanding = false) :
    ∃ early request late, requests = early ++ request :: late ∧
      (engine.run early).Clears ue target request := by
  induction requests generalizing engine with
  | nil =>
      rw [run_nil, marked.outstanding pending] at settled
      cases settled
  | cons head rest ih =>
      by_cases kept : ((engine.handle head).engine.store.stateOf ue).pendingTarget = some target
      · rcases ih (marked.handle head) kept settled with ⟨early, request, late, rfl, clears⟩
        exact ⟨head :: early, request, late, rfl, clears⟩
      · exact ⟨[], head, rest, rfl, marked.clears pending kept⟩

theorem Marked.next_trigger {engine : Engine α} (marked : engine.Marked) {ue : UeId}
    {target : CellId} {request : Request}
    (triggers : .trigger ue target ∈ (engine.handle request).calls) :
    (engine.store.stateOf ue).outstanding = false ∧
      ((engine.handle request).engine.store.stateOf ue).pendingTarget = some target := by
  rw [handle_calls] at triggers
  rcases Progress.trigger_mem_calls triggers with ⟨rfl, triggered⟩
  have applies := engine.progress_applies request
  rw [marked.next request]
  rw [triggered] at applies ⊢
  exact ⟨applies, rfl⟩

/-- Between two handovers of a terminal the first one is cleared. -/
theorem Marked.clears_between {engine : Engine α} (marked : engine.Marked) {ue : UeId}
    {earlier later : CellId} {first second : Request} (between : List Request)
    (starts : .trigger ue earlier ∈ (engine.handle first).calls)
    (restarts : .trigger ue later ∈ ((engine.run (first :: between)).handle second).calls) :
    ∃ early request late, between = early ++ request :: late ∧
      (engine.run (first :: early)).Clears ue earlier request :=
  (marked.handle first).exists_clears between (marked.next_trigger starts).2
    ((marked.run (first :: between)).next_trigger restarts).1

end Engine

end Handover
