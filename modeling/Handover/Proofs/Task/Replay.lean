import Handover.Proofs.Task.Shared
import Mathlib.Control.Monad.Basic
import Mathlib.Data.List.Induction

/-!
# Steps of a shared task that run

An event has one outcome at most, which can be computed.  So a list of events can
be played from a start.
-/

namespace Handover

deriving instance DecidableEq for CallPhase

instance (errand : Errand) : Decidable errand.Ended :=
  match ended : errand.phase with
  | .ended result => .isTrue ⟨result, ended⟩
  | .sending | .waiting => .isFalse fun ⟨_, other⟩ => by cases ended.symm.trans other

namespace SharedTask

variable {σ ω : Type} [InferenceService σ ω] {shared next : SharedTask σ ω}

/-- What an event makes of a shared task, if it can happen. -/
def perform? (shared : SharedTask σ ω) : Event → Option (SharedTask σ ω)
  | .clone handle =>
    if handle ∈ shared.handles then
      some { shared with handles := shared.made :: shared.handles, made := shared.made + 1 }
    else none
  | .drop handle =>
    if handle ∈ shared.handles ∧
        ∀ errand ∈ shared.errands, errand.handle = handle → errand.Ended then
      some { shared with handles := shared.handles.filter (· ≠ handle) }
    else none
  | .begin handle call =>
    if handle ∈ shared.handles then
      some { shared with errands := shared.errands ++ [⟨handle, call, .sending⟩] }
    else none
  | .send ticket =>
    (shared.errands[ticket]?.filter fun errand => errand.phase = .sending).bind fun errand =>
      if shared.task.closed then some (shared.advance ticket errand (.ended (.error .closed)))
      else if shared.task.HasRoom then
        some
          { shared.advance ticket errand errand.call.sentPhase with
            task := shared.task.enqueue (errand.call.message ticket)
            sent := shared.sent ++ [errand.call.message ticket] }
      else none
  | .receive ticket =>
    (shared.errands[ticket]?.filter fun errand => errand.phase = .waiting).bind fun errand =>
      match shared.task.reply? ticket with
      | some target => some (shared.advance ticket errand (.ended (.ok (some target))))
      | none =>
        if shared.task.closed then some (shared.advance ticket errand (.ended (.error .noReply)))
        else none
  | .work =>
    if shared.leaving then none
    else
      match shared.task.queue with
      | .request _ _ :: _ => some { shared with task := shared.task.work }
      | .shutdown :: rest =>
        some { shared with task := { shared.task with queue := rest }, leaving := true }
      | [] => if shared.handles = [] then some { shared with leaving := true } else none
  | .close =>
    if shared.leaving ∧ shared.task.closed = false then
      some { shared with task := shared.task.stop }
    else none

theorem step_of_perform? {event : Event} (performed : shared.perform? event = some next) :
    shared.Step event next := by
  cases event with
  | clone handle =>
      simp only [perform?, Option.ite_none_right_eq_some] at performed
      obtain ⟨held, made⟩ := performed
      cases made
      exact .clone held
  | drop handle =>
      simp only [perform?, Option.ite_none_right_eq_some] at performed
      obtain ⟨⟨held, idle⟩, made⟩ := performed
      cases made
      exact .drop held idle
  | begin handle call =>
      simp only [perform?, Option.ite_none_right_eq_some] at performed
      obtain ⟨held, made⟩ := performed
      cases made
      exact .begin held call
  | send ticket =>
      obtain ⟨errand, begun, performed⟩ := Option.bind_eq_some_iff.mp performed
      obtain ⟨begun, sending⟩ := Option.filter_eq_some_iff.mp begun
      have sending := of_decide_eq_true sending
      split at performed
      · next closed =>
        cases performed
        exact .refuse begun sending closed
      · next opened =>
        obtain ⟨room, made⟩ := Option.ite_none_right_eq_some.mp performed
        cases made
        exact .send begun sending (Bool.eq_false_iff.mpr opened) room
  | receive ticket =>
      obtain ⟨errand, begun, performed⟩ := Option.bind_eq_some_iff.mp performed
      obtain ⟨begun, waiting⟩ := Option.filter_eq_some_iff.mp begun
      have waiting := of_decide_eq_true waiting
      split at performed
      · next target replied =>
        cases performed
        exact .receive begun waiting replied
      · next unreplied =>
        obtain ⟨closed, made⟩ := Option.ite_none_right_eq_some.mp performed
        cases made
        exact .miss begun waiting closed unreplied
  | work =>
      obtain ⟨running, performed⟩ := Option.ite_none_left_eq_some.mp performed
      have running := Bool.eq_false_iff.mpr running
      split at performed
      · next head =>
        cases performed
        exact .serve running head
      · next head =>
        cases performed
        exact .leave running head
      · next empty =>
        obtain ⟨alone, made⟩ := Option.ite_none_right_eq_some.mp performed
        cases made
        exact .desert running empty alone
  | close =>
      obtain ⟨⟨left, opened⟩, made⟩ := Option.ite_none_right_eq_some.mp performed
      cases made
      exact .close left opened

theorem Step.perform? {event : Event} (step : shared.Step event next) :
    shared.perform? event = some next := by
  cases step <;> simp_all [SharedTask.perform?, Option.filter]

/-- An event can happen exactly if it can be performed, and leads to the same shared task,
so the relation is decidable and every event has one outcome at most. -/
theorem step_iff_perform? {event : Event} :
    shared.Step event next ↔ shared.perform? event = some next :=
  ⟨Step.perform?, step_of_perform?⟩

/-- The shared task that events lead to, if they can happen in this order. -/
def replay? (start : SharedTask σ ω) (events : List Event) : Option (SharedTask σ ω) :=
  events.foldlM perform? start

theorem runs_of_replay? {start : SharedTask σ ω} {events : List Event}
    (replayed : start.replay? events = some shared) : Runs start events shared := by
  induction events using List.reverseRecOn generalizing shared with
  | nil =>
      cases replayed
      exact .nil
  | append_singleton events event ih =>
      rw [replay?, List.foldlM_append] at replayed
      obtain ⟨before, earlier, last⟩ := Option.bind_eq_some_iff.mp replayed
      obtain ⟨after, performed, same⟩ := Option.bind_eq_some_iff.mp last
      cases same
      exact .snoc (ih earlier) (step_of_perform? performed)

end SharedTask

end Handover
