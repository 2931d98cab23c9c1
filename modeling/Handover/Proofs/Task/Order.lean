import Handover.Proofs.Task.Tickets

/-!
# The order in which a shared task works

Whatever the callers do and in whichever order, the task carries out the accepted
requests one after the other, as the service alone would.  Each evaluation among
them is answered once, under its own ticket.
-/

namespace Handover

open TaskMessage

namespace SharedTask

variable {σ ω : Type} [InferenceService σ ω]

/-- The task has carried out some requests.  As long as it runs, the others that
were sent are in the queue.  After that it has carried out all that count. -/
structure Follows (service : σ) (served : List Request) (shared : SharedTask σ ω) : Prop where
  roomy : 0 < shared.task.capacity
  service_eq : shared.task.service = InferenceService.run service (served.map Prod.fst)
  handled_eq : shared.task.handled = served.length
  running : shared.leaving = false → shared.sent = served.map ofRequest ++ shared.task.queue
  left : shared.leaving = true →
    accepted shared.sent = served ∧ (.shutdown ∈ shared.sent ∨ shared.handles = [])
  closed : shared.task.closed = true → shared.leaving = true
  replied : ∀ (position : Nat) (call : ServiceCall) (ticket : Nat),
    served[position]? = some (call, some ticket) →
      ∃ target, InferenceService.answerAt? service (served.map Prod.fst) position = some target ∧
        shared.task.repliesTo ticket = [target]
  silent : ∀ ticket : Nat, (∀ call, (call, some ticket) ∉ served) →
    shared.task.repliesTo ticket = []

variable {service : σ} {served : List Request} {shared : SharedTask σ ω}

theorem follows_spawn (service : σ) {capacity : Nat} (positive : 0 < capacity) :
    Follows service [] (spawn service capacity : SharedTask σ ω) where
  roomy := positive
  service_eq := rfl
  handled_eq := rfl
  running _ := rfl
  left := nofun
  closed := nofun
  replied := nofun
  silent _ _ := rfl

namespace Follows

/-- What the task has carried out are the first of the accepted requests. -/
theorem served_prefix (follows : shared.Follows service served) :
    served <+: accepted shared.sent := by
  cases left : shared.leaving with
  | false =>
      rw [follows.running left, accepted_requests]
      exact List.prefix_append _ _
  | true =>
      exact (follows.left left).1 ▸ List.prefix_rfl

/-! ## Answers -/

/-- The caller of a request that has been carried out can take its answer. -/
theorem reply?_of_served (follows : shared.Follows service served) {call : ServiceCall}
    {ticket : Nat} (member : (call, some ticket) ∈ served) :
    ∃ target, shared.task.reply? ticket = some target := by
  obtain ⟨position, here⟩ := List.mem_iff_getElem?.mp member
  obtain ⟨target, _, once⟩ := follows.replied position call ticket here
  exact ⟨target, by rw [Task.reply?_eq_head?, once, List.head?_cons]⟩

/-- An answer that can be taken is that of a request which has been carried out. -/
theorem served_of_reply? (follows : shared.Follows service served) {ticket : Nat}
    {target : CellId} (replied : shared.task.reply? ticket = some target) :
    ∃ position call, served[position]? = some (call, some ticket) ∧
      InferenceService.answerAt? service (served.map Prod.fst) position = some target := by
  rw [Task.reply?_eq_head?] at replied
  by_cases asked : ∃ call, (call, some ticket) ∈ served
  · obtain ⟨call, member⟩ := asked
    obtain ⟨position, here⟩ := List.mem_iff_getElem?.mp member
    obtain ⟨answer, answered, once⟩ := follows.replied position call ticket here
    rw [once] at replied
    cases replied
    exact ⟨position, call, here, answered⟩
  · rw [follows.silent ticket (not_exists.mp asked)] at replied
    cases replied

/-! ## Requests -/

/-- The requests around the next one. -/
theorem accepted_of_next (follows : shared.Follows service served)
    (running : shared.leaving = false) {call : ServiceCall} {ticket : Option Nat}
    {rest : List TaskMessage} (next : shared.task.queue = .request call ticket :: rest) :
    accepted shared.sent = served ++ (call, ticket) :: accepted rest := by
  rw [follows.running running, next, accepted_requests, accepted]

/-- A ticket has not been served before. -/
theorem fresh_of_next (follows : shared.Follows service served) (ticketed : shared.Ticketed)
    (running : shared.leaving = false) {call : ServiceCall} {ticket : Nat}
    {rest : List TaskMessage} (next : shared.task.queue = .request call (some ticket) :: rest)
    (other : ServiceCall) : (other, some ticket) ∉ served := by
  intro member
  have distinct := ticketed.nodup.sublist (tickets_accepted_sublist shared.sent)
  rw [follows.accepted_of_next running next, List.filterMap_append, List.nodup_append] at distinct
  have before : ticket ∈ served.filterMap Prod.snd := List.mem_filterMap.mpr ⟨_, member, rfl⟩
  have again : ticket ∈ ((call, some ticket) :: accepted rest).filterMap Prod.snd :=
    List.mem_cons_self
  exact distinct.2.2 ticket before ticket again rfl

/-- The task carries out the next request. -/
theorem serve [AnswersEvaluations σ] (follows : shared.Follows service served)
    (ticketed : shared.Ticketed) (running : shared.leaving = false) {call : ServiceCall}
    {ticket : Option Nat} {rest : List TaskMessage}
    (next : shared.task.queue = .request call ticket :: rest) :
    Follows service (served ++ [(call, ticket)]) { shared with task := shared.task.work } := by
  have work := Task.work_request next
  have requests := follows.accepted_of_next running next
  have member : (call, ticket) ∈ accepted shared.sent := by
    rw [requests]
    exact List.mem_append_right _ List.mem_cons_self
  have evaluation := (ticketed.of_accepted member).1
  have answers := AnswersEvaluations.isSome_answer shared.task.service call
  constructor
  case roomy =>
    rw [work]
    exact follows.roomy
  case service_eq =>
    rw [work, List.map_append, List.map_singleton, InferenceService.run_concat,
      ← follows.service_eq]
    rfl
  case handled_eq =>
    rw [work, List.length_append, List.length_singleton, ← follows.handled_eq]
    rfl
  case running =>
    intro _
    rw [work, follows.running running, next]
    simp [ofRequest, Task.serve]
  case left =>
    intro left
    cases running.symm.trans left
  case closed =>
    rw [work]
    exact follows.closed
  case replied =>
    intro position asked other here
    rw [Task.repliesTo_work next, List.map_append, List.map_singleton]
    rcases concat_cases here with before | ⟨rfl, same⟩
    · -- Its answer was there already, and the new one has another ticket.
      obtain ⟨target, answered, once⟩ := follows.replied position asked other before
      have distinct : ticket ≠ some other := by
        rintro rfl
        exact follows.fresh_of_next ticketed running next asked (List.mem_of_getElem? before)
      have inside : position < (served.map Prod.fst).length := by
        rw [List.length_map]
        exact (List.getElem?_eq_some_iff.mp before).1
      refine ⟨target, ?_, ?_⟩
      · rw [InferenceService.answerAt?_append service inside, answered]
      · rw [if_neg distinct]
        exact once
    · cases same
      obtain ⟨target, answered⟩ := Option.isSome_iff_exists.mp (answers.trans evaluation.symm)
      refine ⟨target, ?_, ?_⟩
      · have here := InferenceService.answerAt?_concat service (served.map Prod.fst) call
        rw [List.length_map, ← follows.service_eq] at here
        rw [here, answered]
      · have unheard := follows.silent other (follows.fresh_of_next ticketed running next)
        simp [unheard, answered]
  case silent =>
    intro other unserved
    rw [Task.repliesTo_work next]
    have distinct : ticket ≠ some other := by
      rintro rfl
      exact unserved call (List.mem_append_right _ (List.mem_singleton_self _))
    rw [if_neg distinct]
    exact follows.silent other fun asked before => unserved asked (List.mem_append_left _ before)

/-! ## Other steps -/

/-- A message comes into the queue. -/
theorem send (follows : shared.Follows service served) (ticketed : shared.Ticketed) {ticket : Nat}
    {errand : Errand} (begun : shared.errands[ticket]? = some errand)
    (sending : errand.phase = .sending) (message : TaskMessage) (phase : CallPhase) :
    Follows service served
      { shared.advance ticket errand phase with
        task := shared.task.enqueue message
        sent := shared.sent ++ [message] } where
  roomy := follows.roomy
  service_eq := follows.service_eq
  handled_eq := follows.handled_eq
  running := by
    intro running
    rw [follows.running running, List.append_assoc]
    rfl
  left := by
    intro left
    obtain ⟨requests, shutdown | alone⟩ := follows.left left
    · rw [accepted_append_of_shutdown shutdown]
      exact ⟨requests, .inl (List.mem_append_left _ shutdown)⟩
    · -- The caller holds a handle until its call has ended.
      rcases ticketed.held errand (List.mem_of_getElem? begun) with stays | ⟨result, ended⟩
      · rw [alone] at stays
        cases stays
      · cases sending.symm.trans ended
  closed := follows.closed
  replied := follows.replied
  silent := follows.silent

/-- The task takes a shutdown. -/
theorem leave (follows : shared.Follows service served) (running : shared.leaving = false)
    {rest : List TaskMessage} (next : shared.task.queue = .shutdown :: rest) :
    Follows service served
      { shared with task := { shared.task with queue := rest }, leaving := true } where
  roomy := follows.roomy
  service_eq := follows.service_eq
  handled_eq := follows.handled_eq
  running := nofun
  left := by
    intro _
    change accepted shared.sent = served ∧ (.shutdown ∈ shared.sent ∨ shared.handles = [])
    rw [follows.running running, next, accepted_requests, accepted, List.append_nil]
    exact ⟨rfl, .inl (List.mem_append_right _ List.mem_cons_self)⟩
  closed _ := rfl
  replied := follows.replied
  silent := follows.silent

/-- The task finds nobody. -/
theorem desert (follows : shared.Follows service served) (running : shared.leaving = false)
    (empty : shared.task.queue = []) (alone : shared.handles = []) :
    Follows service served { shared with leaving := true } where
  roomy := follows.roomy
  service_eq := follows.service_eq
  handled_eq := follows.handled_eq
  running := nofun
  left := by
    intro _
    have requests := accepted_requests served []
    rw [← empty, ← follows.running running, empty, accepted, List.append_nil] at requests
    exact ⟨requests, .inr alone⟩
  closed _ := rfl
  replied := follows.replied
  silent := follows.silent

/-- Handles and calls change, and nothing about the task itself. -/
theorem callers (follows : shared.Follows service served) (handles : List Nat) (made : Nat)
    (errands : List Errand) (none : shared.handles = [] → handles = []) :
    Follows service served
      { shared with handles := handles, made := made, errands := errands } where
  roomy := follows.roomy
  service_eq := follows.service_eq
  handled_eq := follows.handled_eq
  running := follows.running
  left left := ⟨(follows.left left).1, (follows.left left).2.imp_right none⟩
  closed := follows.closed
  replied := follows.replied
  silent := follows.silent

theorem step [AnswersEvaluations σ] (follows : shared.Follows service served)
    (ticketed : shared.Ticketed) {event : Event} {next : SharedTask σ ω}
    (step : shared.Step event next) : ∃ served, next.Follows service served := by
  cases step with
  | clone held =>
      refine ⟨served, follows.callers _ _ shared.errands fun alone => ?_⟩
      rw [alone] at held
      cases held
  | drop _ _ =>
      refine ⟨served, follows.callers _ shared.made shared.errands fun alone => ?_⟩
      rw [alone, List.filter_nil]
  | begin _ _ => exact ⟨served, follows.callers shared.handles shared.made _ id⟩
  | send begun sending _ _ => exact ⟨served, follows.send ticketed begun sending _ _⟩
  | refuse _ _ _ | receive _ _ _ | miss _ _ _ _ =>
      exact ⟨served, follows.callers shared.handles shared.made _ id⟩
  | serve running next => exact ⟨_, follows.serve ticketed running next⟩
  | leave running next => exact ⟨served, follows.leave running next⟩
  | desert running empty alone => exact ⟨served, follows.desert running empty alone⟩
  | close left _ =>
      exact
        ⟨served,
          { follows with
            running := fun running => by cases left.symm.trans running
            closed := fun _ => left }⟩

end Follows

theorem Runs.invariants [AnswersEvaluations σ] (service : σ) {capacity : Nat}
    (positive : 0 < capacity) {events : List Event} {shared : SharedTask σ ω}
    (runs : Runs (spawn service capacity) events shared) :
    shared.Ticketed ∧ ∃ served, shared.Follows service served := by
  induction runs with
  | nil => exact ⟨ticketed_spawn service capacity, [], follows_spawn service positive⟩
  | snoc _ step ih =>
      obtain ⟨ticketed, _, follows⟩ := ih
      exact ⟨ticketed.step step, follows.step ticketed step⟩

end SharedTask

end Handover
