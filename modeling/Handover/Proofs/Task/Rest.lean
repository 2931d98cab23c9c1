import Handover.Proofs.Task.Order
import Mathlib.Algebra.GroupWithZero.Nat

/-!
# A shared task comes to rest

Sending a message, carrying it out and taking the answer are three steps of a
call, and two more steps end the task.  So calls that have begun keep the task
busy for so many steps only.  When nothing is left to do, every caller has its
result.
-/

namespace Handover

open TaskMessage

/-- Steps that a call still takes at most. -/
def Errand.load (errand : Errand) : Nat :=
  match errand.phase with
  | .sending => 3
  | .waiting => 1
  | .ended _ => 0

namespace SharedTask

variable {σ ω : Type} {shared : SharedTask σ ω}

/-- Steps that the task itself still takes at most. -/
def ownLoad (shared : SharedTask σ ω) : Nat :=
  shared.task.queue.length + if shared.task.closed then 0 else if shared.leaving then 1 else 2

/-- Steps that task and callers still take at most before a caller decides on
something. -/
def load (shared : SharedTask σ ω) : Nat :=
  (shared.errands.map Errand.load).sum + shared.ownLoad

theorem sum_load_set {errands : List Errand} {ticket : Nat} {errand : Errand}
    (known : errands[ticket]? = some errand) (later : Errand) :
    ((errands.set ticket later).map Errand.load).sum + errand.load =
      (errands.map Errand.load).sum + later.load := by
  induction errands generalizing ticket with
  | nil => cases known
  | cons first rest ih =>
      cases ticket with
      | zero =>
          cases known
          simp only [List.set_cons_zero, List.map_cons, List.sum_cons]
          omega
      | succ ticket =>
          have shifted := @ih ticket known
          simp only [List.set_cons_succ, List.map_cons, List.sum_cons]
          omega

/-- A call comes to another phase. -/
theorem load_advance {ticket : Nat} {errand : Errand}
    (begun : shared.errands[ticket]? = some errand) (phase : CallPhase) :
    (shared.advance ticket errand phase).load + errand.load =
      shared.load + Errand.load { errand with phase := phase } := by
  have moved := sum_load_set begun { errand with phase := phase }
  have own : (shared.advance ticket errand phase).ownLoad = shared.ownLoad := rfl
  simp only [load, own]
  simp only [advance]
  omega

/-- A call gets its result. -/
theorem load_ended {ticket : Nat} {errand : Errand}
    (begun : shared.errands[ticket]? = some errand) (busy : 0 < errand.load)
    (result : Except TaskError (Option CellId)) :
    (shared.advance ticket errand (.ended result)).load < shared.load := by
  have moved := load_advance begun (.ended result)
  have idle : Errand.load { errand with phase := .ended result } = 0 := rfl
  omega

/-- A message sent is one that the task has to take. -/
theorem load_enqueue (shared : SharedTask σ ω) (message : TaskMessage) (sent : List TaskMessage) :
    load { shared with task := shared.task.enqueue message, sent := sent } = shared.load + 1 := by
  dsimp only [load, ownLoad, Task.enqueue]
  rw [List.length_append, List.length_singleton, Nat.add_right_comm, ← Nat.add_assoc]

variable [InferenceService σ ω]

theorem Step.load_lt {event : Event} {next : SharedTask σ ω} (step : shared.Step event next)
    (internal : event.isInternal = true)
    (closed : shared.task.closed = true → shared.leaving = true) : next.load < shared.load := by
  cases step with
  | clone _ | drop _ _ | begin _ _ => cases internal
  | @send ticket errand begun sending _ _ =>
      have moved := load_advance begun errand.call.sentPhase
      have before : errand.load = 3 := by rw [Errand.load, sending]
      have after : Errand.load { errand with phase := errand.call.sentPhase } ≤ 1 := by
        rcases sentPhase_cases errand.call with ⟨_, phase⟩ | ⟨_, phase⟩ <;>
          simp [Errand.load, phase]
      have queued := load_enqueue (shared.advance ticket errand errand.call.sentPhase)
        (errand.call.message ticket) (shared.sent ++ [errand.call.message ticket])
      calc
        _ = (shared.advance ticket errand errand.call.sentPhase).load + 1 := queued
        _ < shared.load := by omega
  | refuse begun sending _ => exact load_ended begun (by simp [Errand.load, sending]) _
  | receive begun waiting _ => exact load_ended begun (by simp [Errand.load, waiting]) _
  | miss begun waiting _ _ => exact load_ended begun (by simp [Errand.load, waiting]) _
  | serve _ next => simp [load, ownLoad, Task.work_request next, next, Task.serve]
  | leave running next =>
      simp only [load, ownLoad, next, running, List.length_cons]
      split
      · omega
      · simp only [if_true, Bool.false_eq_true, if_false]
        omega
  | desert running _ _ =>
      have opened : shared.task.closed = false := by
        cases ended : shared.task.closed with
        | false => rfl
        | true => cases running.symm.trans (closed ended)
      simp [load, ownLoad, running, opened]
  | close left opened =>
      simp [load, ownLoad, left, opened, Task.stop]

/-- A call that begins has three steps before it.  Nothing else that a caller decides
makes work. -/
theorem Step.load_le {event : Event} {next : SharedTask σ ω} (step : shared.Step event next)
    (decided : event.isInternal = false) :
    next.load ≤ shared.load + 3 * if event.isBegin then 1 else 0 := by
  cases step with
  | clone _ | drop _ _ => exact Nat.le_refl _
  | begin _ call =>
      simp [load, ownLoad, Errand.load, Event.isBegin]
      omega
  | send _ _ _ _ | refuse _ _ _ | receive _ _ _ | miss _ _ _ _ | serve _ _ | leave _ _
  | desert _ _ _ | close _ _ => cases decided

section Runs

variable [AnswersEvaluations σ] {service : σ} {capacity : Nat} {events : List Event}

/-- For each call that begins, task and callers take three steps at most, and two
more in the end. -/
theorem Runs.internal_le (positive : 0 < capacity)
    (runs : Runs (spawn service capacity) events shared) :
    events.countP Event.isInternal + shared.load ≤ 3 * events.countP Event.isBegin + 2 := by
  induction runs with
  | nil => exact Nat.le_refl 2
  | snoc earlier step ih =>
      obtain ⟨_, _, follows⟩ := earlier.invariants service positive
      simp only [List.countP_append, List.countP_singleton]
      cases internal : Event.isInternal _ with
      | true =>
          have lowered := step.load_lt internal follows.closed
          simp only [if_true]
          omega
      | false =>
          have kept := step.load_le internal
          simp only [Bool.false_eq_true, if_false]
          omega

end Runs

/-- A caller whose request has been carried out can take its answer. -/
theorem Follows.reply_of_carried {service : σ} {served : List Request}
    (follows : shared.Follows service served) (sent : shared.sent = served.map ofRequest)
    {ticket : Nat} (carried : Carried ticket shared.sent) :
    ∃ target, shared.task.reply? ticket = some target := by
  rw [sent, Carried, List.filterMap_map] at carried
  obtain ⟨⟨call, carries⟩, member, same⟩ := List.mem_filterMap.mp carried
  change carries = some ticket at same
  subst same
  exact follows.reply?_of_served member

/-- A stopped task leaves no call under way. -/
theorem AtRest.ended_of_closed (rest : shared.AtRest) (closed : shared.task.closed = true) :
    ∀ errand ∈ shared.errands, errand.Ended := by
  intro errand member
  obtain ⟨ticket, begun⟩ := List.mem_iff_getElem?.mp member
  cases phase : errand.phase with
  | ended result => exact ⟨result, phase⟩
  | sending => exact absurd (Step.refuse begun phase closed) (rest _ _ rfl)
  | waiting =>
      cases reply : shared.task.reply? ticket with
      | some target => exact absurd (Step.receive begun phase reply) (rest _ _ rfl)
      | none => exact absurd (Step.miss begun phase closed reply) (rest _ _ rfl)

/-- A task that has not stopped still runs, and has taken all messages. -/
theorem AtRest.idle_of_open (rest : shared.AtRest) (opened : shared.task.closed = false) :
    shared.leaving = false ∧ shared.task.queue = [] := by
  have running : shared.leaving = false := by
    cases left : shared.leaving with
    | false => rfl
    | true => exact absurd (Step.close left opened) (rest _ _ rfl)
  refine ⟨running, ?_⟩
  cases next : shared.task.queue with
  | nil => rfl
  | cons message _ =>
      cases message with
      | request call ticket => exact absurd (Step.serve running next) (rest _ _ rfl)
      | shutdown => exact absurd (Step.leave running next) (rest _ _ rfl)

/-- A shared task at rest has no call under way, and it stays open only for a caller
that could still ask. -/
theorem AtRest.ended {service : σ} {served : List Request} (rest : shared.AtRest)
    (follows : shared.Follows service served) (ticketed : shared.Ticketed) :
    (∀ errand ∈ shared.errands, errand.Ended) ∧
      (shared.task.closed = true ∨ shared.handles ≠ [] ∧ .shutdown ∉ shared.sent) := by
  cases ended : shared.task.closed with
  | true => exact ⟨rest.ended_of_closed ended, .inl rfl⟩
  | false =>
      obtain ⟨running, empty⟩ := rest.idle_of_open ended
      have sent : shared.sent = served.map ofRequest := by
        rw [follows.running running, empty, List.append_nil]
      refine ⟨?_, .inr ⟨?_, ?_⟩⟩
      · intro errand member
        obtain ⟨ticket, begun⟩ := List.mem_iff_getElem?.mp member
        cases phase : errand.phase with
        | ended result => exact ⟨result, phase⟩
        | sending =>
            have room : shared.task.HasRoom := by
              rw [Task.HasRoom, empty]
              exact follows.roomy
            exact absurd (Step.send begun phase ended room) (rest _ _ rfl)
        | waiting =>
            obtain ⟨target, reply⟩ := follows.reply_of_carried sent
              (ticketed.awaited ticket errand begun phase).2
            exact absurd (Step.receive begun phase reply) (rest _ _ rfl)
      · intro alone
        exact rest _ _ rfl (Step.desert running empty alone)
      · rw [sent]
        intro member
        obtain ⟨_, _, same⟩ := List.mem_map.mp member
        cases same

end SharedTask

end Handover
