import Handover.Dispatch
import Mathlib.Algebra.Group.Defs

/-!
# How a handover progresses

An operation does one of a few things to the handover of its terminal, and that
tells all that the dispatcher does: what is counted, what the host is asked for,
and which target is pending afterwards.
-/

namespace Handover

/-! ## Counters -/

namespace DispatchStats

attribute [ext] DispatchStats

instance : Zero DispatchStats :=
  ⟨zero⟩

theorem add_def (first second : DispatchStats) :
    first + second =
      ⟨first.dispatched + second.dispatched, first.suppressed + second.suppressed,
        first.completed + second.completed, first.failed + second.failed,
        first.released + second.released⟩ :=
  rfl

theorem zero_def : (0 : DispatchStats) = ⟨0, 0, 0, 0, 0⟩ :=
  rfl

/-- Counters are added one by one. -/
instance : AddCommMonoid DispatchStats where
  add_assoc first second third := by
    simp only [add_def, Nat.add_assoc]
  zero_add stats := by
    simp only [add_def, zero_def, Nat.zero_add]
  add_zero stats := by
    simp only [add_def, zero_def, Nat.add_zero]
  add_comm first second := by
    simp only [add_def, Nat.add_comm]
  nsmul := nsmulRec

end DispatchStats

/-! ## Steps of a handover -/

/-- What an operation does to the handover of its terminal. -/
inductive Progress where
  /-- Nothing. -/
  | idle
  /-- A handover starts. -/
  | triggered (target : CellId)
  /-- No handover starts because one is outstanding. -/
  | withheld
  /-- The outcome of the outstanding handover is known. -/
  | concluded (outcome : HandoverOutcome)
  /-- The outstanding handover is dropped for a new connection. -/
  | released
  /-- The outstanding handover is forgotten with its terminal. -/
  | removed
deriving DecidableEq, Repr

namespace Progress

/-- What is counted. -/
def counted : Progress → DispatchStats
  | idle => 0
  | triggered _ => ⟨1, 0, 0, 0, 0⟩
  | withheld => ⟨0, 1, 0, 0, 0⟩
  | concluded .completed => ⟨0, 0, 1, 0, 0⟩
  | concluded .failed => ⟨0, 0, 0, 1, 0⟩
  | released => ⟨0, 0, 0, 0, 1⟩
  | removed => 0

/-- What the host is asked for. -/
def calls (ue : UeId) : Progress → List HostCall
  | triggered target => [.trigger ue target]
  | _ => []

/-- The pending target afterwards, given the one before. -/
def next (pending : Option CellId) : Progress → Option CellId
  | idle => pending
  | triggered target => some target
  | withheld => pending
  | concluded _ => none
  | released => none
  | removed => none

/-- The offer of a target, if there is one. -/
def ofOffer (state : UeState) : Option CellId → Progress
  | none => idle
  | some target => if state.outstanding then withheld else triggered target

/-- The end of a handover, if one is outstanding. -/
def ofEnd (state : UeState) (progress : Progress) : Progress :=
  if state.outstanding then progress else idle

/-- A progress that a terminal can make: a handover starts only if none is
outstanding, and all else but nothing takes an outstanding one. -/
def Applies (outstanding : Bool) : Progress → Prop
  | idle => True
  | triggered _ => outstanding = false
  | withheld => outstanding = true
  | concluded _ => outstanding = true
  | released => outstanding = true
  | removed => outstanding = true

theorem ofOffer_applies (state : UeState) (target : Option CellId) :
    (ofOffer state target).Applies state.outstanding := by
  cases target with
  | none => trivial
  | some cell =>
      unfold ofOffer
      cases state.outstanding <;> rfl

theorem ofEnd_applies (state : UeState) {progress : Progress} (ends : progress.Applies true) :
    (ofEnd state progress).Applies state.outstanding := by
  unfold ofEnd
  cases state.outstanding with
  | false => trivial
  | true => exact ends

theorem ofOffer_ne_removed (state : UeState) (target : Option CellId) :
    ofOffer state target ≠ removed := by
  cases target with
  | none =>
      intro same
      cases same
  | some cell =>
      rw [ofOffer]
      split <;> exact nofun

theorem ofEnd_ne (state : UeState) {progress other : Progress} (idle_ne : idle ≠ other)
    (distinct : progress ≠ other) : ofEnd state progress ≠ other := by
  unfold ofEnd
  split
  · exact distinct
  · exact idle_ne

theorem ofEnd_calls (state : UeState) {ue : UeId} {progress : Progress}
    (silent : progress.calls ue = []) : (ofEnd state progress).calls ue = [] := by
  unfold ofEnd
  split
  · exact silent
  · rfl

/-- While a handover is outstanding, an offer changes no pending target. -/
theorem next_ofOffer {state : UeState} (outstanding : state.outstanding = true)
    (target : Option CellId) (pending : Option CellId) :
    (ofOffer state target).next pending = pending := by
  cases target with
  | none => rfl
  | some cell => rw [ofOffer, outstanding, if_pos rfl, next]

/-- Handovers that start are balanced by those that end, those that are forgotten
and those that stay outstanding. -/
theorem balance {progress : Progress} {pending : Option CellId}
    (applies : progress.Applies pending.isSome) :
    pending.isSome.toNat + progress.counted.dispatched =
      (progress.next pending).isSome.toNat + progress.counted.completed +
        progress.counted.failed + progress.counted.released +
        (progress == removed).toNat := by
  cases progress with
  | idle => rfl
  | triggered target =>
      rw [show pending.isSome = false from applies]
      rfl
  | withheld => rfl
  | concluded outcome =>
      rw [show pending.isSome = true from applies]
      cases outcome <;> rfl
  | released =>
      rw [show pending.isSome = true from applies]
      rfl
  | removed =>
      rw [show pending.isSome = true from applies]
      rfl

end Progress

/-- The mark of an outstanding handover stands exactly if there is a pending
target. -/
def UeState.Marked (state : UeState) : Prop :=
  state.outstanding = state.pendingTarget.isSome

namespace Dispatch

variable {α : Type} (stats : DispatchStats) (state : UeState)

theorem offer_stats (decision : Decision) :
    (offer stats state decision).1.stats =
      stats + (Progress.ofOffer state decision.target).counted := by
  unfold offer Progress.ofOffer
  cases decision.target with
  | none => exact (add_zero stats).symm
  | some target => cases state.outstanding <;> rfl

theorem offer_calls (decision : Decision) :
    (offer stats state decision).2 =
      (Progress.ofOffer state decision.target).calls decision.ue := by
  unfold offer Progress.ofOffer
  cases decision.target with
  | none => rfl
  | some target => cases state.outstanding <;> rfl

theorem offer_suppressed (decision : Decision) :
    (offer stats state decision).1.answer = .suppressed ↔
      Progress.ofOffer state decision.target = .withheld := by
  unfold offer Progress.ofOffer
  cases decision.target with
  | none => simp
  | some target => cases state.outstanding <;> simp

theorem offer_pending (decision : Decision) :
    (offer stats state decision).1.state.pendingTarget =
      (Progress.ofOffer state decision.target).next state.pendingTarget := by
  unfold offer Progress.ofOffer
  cases decision.target with
  | none => rfl
  | some target => cases state.outstanding <;> rfl

theorem offer_marked {state : UeState} (marked : state.Marked) (decision : Decision) :
    (offer stats state decision).1.state.Marked := by
  unfold offer
  cases decision.target with
  | none => exact marked
  | some target =>
      cases outstanding : state.outstanding with
      | false => rfl
      | true => simpa only [outstanding, if_true] using marked

theorem acknowledge_stats (outcome : HandoverOutcome) :
    (acknowledge (α := α) stats state outcome).1.stats =
      stats + (Progress.ofEnd state (.concluded outcome)).counted := by
  unfold acknowledge Progress.ofEnd
  cases state.outstanding with
  | false => exact (add_zero stats).symm
  | true => cases outcome <;> rfl

/-- After an outcome nothing is outstanding, whether it was expected or not. -/
theorem acknowledge_state (outcome : HandoverOutcome) :
    (acknowledge (α := α) stats state outcome).1.state = settle state := by
  unfold acknowledge
  cases state.outstanding <;> cases outcome <;> rfl

theorem acknowledge_answer (outcome : HandoverOutcome) :
    (acknowledge (α := α) stats state outcome).1.answer = state.outstanding := by
  unfold acknowledge
  cases state.outstanding <;> cases outcome <;> rfl

/-- Without an outstanding handover there is nothing to settle. -/
theorem settle_of_marked {state : UeState} (marked : state.Marked)
    (settled : state.outstanding = false) : settle state = state := by
  rcases state with ⟨ue, neighbours, outstanding, pendingTarget, cell, since, history, length⟩
  cases settled
  cases pendingTarget with
  | none => rfl
  | some target => cases marked

theorem release_stats :
    (release stats state).stats = stats + (Progress.ofEnd state .released).counted := by
  unfold release Progress.ofEnd
  cases state.outstanding with
  | false => exact (add_zero stats).symm
  | true => rfl

theorem release_state {state : UeState} (marked : state.Marked) :
    (release stats state).state = settle state := by
  unfold release
  cases outstanding : state.outstanding with
  | false => exact (settle_of_marked marked outstanding).symm
  | true => rfl

/-- The end of a handover leaves no target pending. -/
theorem next_ofEnd {state : UeState} (marked : state.Marked) {progress : Progress}
    (ends : progress.next state.pendingTarget = none) :
    (Progress.ofEnd state progress).next state.pendingTarget = none := by
  unfold Progress.ofEnd
  cases outstanding : state.outstanding with
  | false => simpa [UeState.Marked, outstanding, Progress.next] using marked
  | true => exact ends

/-! ## Counters are only written -/

theorem offer_counters (first second : DispatchStats) (state : UeState) (decision : Decision) :
    (offer first state decision).1.state = (offer second state decision).1.state ∧
      (offer first state decision).1.answer = (offer second state decision).1.answer ∧
      (offer first state decision).2 = (offer second state decision).2 := by
  unfold offer
  cases decision.target with
  | none => exact ⟨rfl, rfl, rfl⟩
  | some target => cases state.outstanding <;> exact ⟨rfl, rfl, rfl⟩

theorem acknowledge_counters {α : Type} (first second : DispatchStats) (state : UeState)
    (outcome : HandoverOutcome) :
    (acknowledge (α := α) first state outcome).1.state =
        (acknowledge (α := α) second state outcome).1.state ∧
      (acknowledge (α := α) first state outcome).1.answer =
        (acknowledge (α := α) second state outcome).1.answer ∧
      (acknowledge (α := α) first state outcome).2 =
        (acknowledge (α := α) second state outcome).2 := by
  unfold acknowledge
  cases outcome <;> cases state.outstanding <;> exact ⟨rfl, rfl, rfl⟩

theorem release_counters (first second : DispatchStats) (state : UeState) :
    (release first state).state = (release second state).state := by
  unfold release
  cases state.outstanding <;> rfl

end Dispatch

end Handover
