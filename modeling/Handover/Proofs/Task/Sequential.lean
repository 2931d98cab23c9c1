import Handover.Proofs.Service.Answer
import Handover.Proofs.Task.Replay
import Handover.Proofs.Task.Rest

/-!
# A shared task and the service alone

A shared task gives back the service that carries out the accepted requests one
after the other.  A caller of an accepted evaluation hears what that service
answers at its position.  Any other caller of an evaluation hears that there is
no answer.
-/

namespace Handover

open TaskMessage

section Answers

variable {σ ω : Type} [InferenceService σ ω] [AnswersEvaluations σ]

/-- An evaluation has an answer at its position. -/
theorem InferenceService.exists_answerAt? (service : σ) {calls : List ServiceCall}
    {position : Nat} {call : ServiceCall} (here : calls[position]? = some call)
    (evaluation : call.isEvaluation = true) :
    ∃ target, answerAt? service calls position = some target := by
  have answered := AnswersEvaluations.isSome_answer (run service (calls.take position)) call
  rw [evaluation] at answered
  obtain ⟨target, answered⟩ := Option.isSome_iff_exists.mp answered
  exact ⟨target, by rw [answerAt?, here, Option.bind_some, answered]⟩

end Answers

/-- Without a shutdown all messages are accepted requests. -/
theorem TaskMessage.map_accepted {messages : List TaskMessage}
    (steady : .shutdown ∉ messages) : (accepted messages).map ofRequest = messages := by
  induction messages with
  | nil => rfl
  | cons message rest ih =>
      cases message with
      | shutdown => exact absurd List.mem_cons_self steady
      | request call ticket =>
          have later : .shutdown ∉ rest := fun member => steady (List.mem_cons_of_mem _ member)
          rw [accepted, List.map_cons, ih later]
          rfl

namespace SharedTask

variable {σ ω : Type} [InferenceService σ ω] {service : σ} {shared next : SharedTask σ ω}
  {event : Event} {ticket : Nat} {errand : Errand}

/-- The calls that count, in order. -/
def calls (shared : SharedTask σ ω) : List ServiceCall :=
  (accepted shared.sent).map Prod.fst

/-! ## Results -/

/-- What a result of a call says: a value is the answer of the service alone, no
value belongs to a call without answer, and a failure to a call that came too
late. -/
def Justified (service : σ) (shared : SharedTask σ ω) (ticket : Nat) (errand : Errand) : Prop :=
  match errand.phase with
  | .sending | .waiting => True
  | .ended (.ok (some target)) => ∃ position call,
      (accepted shared.sent)[position]? = some (call, some ticket) ∧
        InferenceService.answerAt? service shared.calls position = some target
  | .ended (.ok none) => errand.call.isEvaluation = false
  | .ended (.error _) =>
      shared.task.closed = true ∧ ∀ call, (call, some ticket) ∉ accepted shared.sent

theorem Step.sent_prefix (step : shared.Step event next) : shared.sent <+: next.sent := by
  cases step with
  | send _ _ _ _ => exact List.prefix_append _ _
  | clone _ | drop _ _ | begin _ _ | refuse _ _ _ | receive _ _ _ | miss _ _ _ _ | serve _ _
  | leave _ _ | desert _ _ _ | close _ _ => exact List.prefix_rfl

/-- A closed task stays closed, and nothing more is sent to it. -/
theorem Step.of_closed (step : shared.Step event next) (closed : shared.task.closed = true) :
    next.task.closed = true ∧ next.sent = shared.sent := by
  cases step with
  | send _ _ opened _ => cases opened.symm.trans closed
  | close _ opened => cases opened.symm.trans closed
  | serve _ head =>
      rw [Task.work_request head]
      exact ⟨closed, rfl⟩
  | clone _ | drop _ _ | begin _ _ | refuse _ _ _ | receive _ _ _ | miss _ _ _ _ | leave _ _
  | desert _ _ _ => exact ⟨closed, rfl⟩

/-- The requests that have been carried out keep their positions. -/
theorem answered_of_grown {requests others : List Request} (grown : requests <+: others)
    {position : Nat} {entry : Request} {target : CellId} (here : requests[position]? = some entry)
    (answered :
      InferenceService.answerAt? service (requests.map Prod.fst) position = some target) :
    others[position]? = some entry ∧
      InferenceService.answerAt? service (others.map Prod.fst) position = some target := by
  obtain ⟨later, rfl⟩ := grown
  have inside : position < requests.length := (List.getElem?_eq_some_iff.mp here).1
  have within : position < (requests.map Prod.fst).length := by
    rw [List.length_map]
    exact inside
  rw [List.getElem?_append_left inside, List.map_append,
    InferenceService.answerAt?_append service within]
  exact ⟨here, answered⟩

/-- Later steps take no result back. -/
theorem Justified.later (justified : Justified service shared ticket errand)
    (step : shared.Step event next) : Justified service next ticket errand := by
  unfold Justified at justified ⊢
  split at justified
  · trivial
  · trivial
  · obtain ⟨position, call, here, answered⟩ := justified
    obtain ⟨later, grown⟩ := step.sent_prefix
    exact ⟨position, call,
      answered_of_grown (grown ▸ accepted_prefix shared.sent later) here answered⟩
  · exact justified
  · obtain ⟨closed, sent⟩ := step.of_closed justified.1
    rw [sent]
    exact ⟨closed, justified.2⟩

/-- Every call stands where it may stand. -/
def Settled (service : σ) (shared : SharedTask σ ω) : Prop :=
  ∀ ticket errand, shared.errands[ticket]? = some errand → Justified service shared ticket errand

theorem Settled.step (settled : shared.Settled service) (ticketed : shared.Ticketed)
    {served : List Request} (follows : shared.Follows service served)
    (step : shared.Step event next) : next.Settled service := by
  have kept : ∀ ticket errand, shared.errands[ticket]? = some errand →
      Justified service next ticket errand :=
    fun ticket errand known => (settled ticket errand known).later step
  have moved : ∀ {ticket errand} (phase : CallPhase), shared.errands[ticket]? = some errand →
      next.errands = (shared.advance ticket errand phase).errands →
      Justified service next ticket { errand with phase := phase } → next.Settled service := by
    intro ticket errand phase begun same justified other found known
    rw [same] at known
    rcases advance_cases begun known with ⟨rfl, rfl⟩ | ⟨_, before⟩
    · exact justified
    · exact kept other found before
  cases step with
  | clone _ | drop _ _ | serve _ _ | leave _ _ | desert _ _ _ | close _ _ => exact kept
  | begin _ _ =>
      intro ticket errand known
      rcases concat_cases known with before | ⟨_, rfl⟩
      · exact kept ticket errand before
      · trivial
  | @send ticket errand begun _ _ _ =>
      refine moved _ begun rfl ?_
      rcases sentPhase_cases errand.call with ⟨_, phase⟩ | ⟨silent, phase⟩
      · rw [phase]
        trivial
      · rw [phase]
        exact silent
  | @refuse ticket errand begun sending closed =>
      refine moved _ begun rfl ⟨closed, ?_⟩
      intro call member
      exact ticketed.unsent ticket errand begun sending
        (List.mem_filterMap.mpr ⟨_, mem_of_mem_accepted member, rfl⟩)
  | receive begun _ replied =>
      refine moved _ begun rfl ?_
      obtain ⟨position, call, here, answered⟩ := follows.served_of_reply? replied
      exact ⟨position, call, answered_of_grown follows.served_prefix here answered⟩
  | @miss ticket errand begun _ closed unreplied =>
      refine moved _ begun rfl ⟨closed, ?_⟩
      intro call member
      change (call, some ticket) ∈ accepted shared.sent at member
      rw [(follows.left (follows.closed closed)).1] at member
      obtain ⟨target, replied⟩ := follows.reply?_of_served member
      cases unreplied.symm.trans replied

theorem Runs.settled [AnswersEvaluations σ] {capacity : Nat} (positive : 0 < capacity)
    {events : List Event} (runs : Runs (spawn service capacity) events shared) :
    shared.Settled service := by
  induction runs with
  | nil => nofun
  | snoc earlier step ih =>
      obtain ⟨ticketed, _, follows⟩ := earlier.invariants service positive
      exact ih.step ticketed follows step

/-! ## The whole -/

/-- What the callers of a shared task can rely on. -/
structure Sequential (service : σ) (shared : SharedTask σ ω) : Prop where
  /-- The service that an ended task gives back has carried out the accepted
  requests, in order. -/
  given_back : shared.task.closed = true →
    shared.task.service = InferenceService.run service shared.calls ∧
      shared.task.handled = shared.calls.length
  /-- Without a shutdown a task ends only when no handle is left, and then it has
  accepted all that was sent. -/
  ended : shared.task.closed = true → .shutdown ∉ shared.sent →
    shared.handles = [] ∧ (accepted shared.sent).map ofRequest = shared.sent
  /-- An accepted evaluation has one answer, which is that of the service alone at
  its position.  The answer goes to its caller, who hears nothing else. -/
  answered : ∀ (position : Nat) (call : ServiceCall) (carried : Option Nat),
    (accepted shared.sent)[position]? = some (call, carried) → call.isEvaluation = true →
      ∃ ticket errand target, carried = some ticket ∧ shared.errands[ticket]? = some errand ∧
        errand.call = .request call ∧
        InferenceService.answerAt? service shared.calls position = some target ∧
        (shared.task.repliesTo ticket = [target] ∨
          shared.task.closed = false ∧ shared.task.repliesTo ticket = []) ∧
        ∀ result, errand.phase = .ended result → result = .ok (some target)
  /-- Nothing is answered to any other evaluation.  Its caller hears that the task
  has stopped, or that it dropped the request. -/
  refused : ∀ (ticket : Nat) (errand : Errand), shared.errands[ticket]? = some errand →
    errand.call.isEvaluation = true → (∀ call, (call, some ticket) ∉ accepted shared.sent) →
      shared.task.repliesTo ticket = [] ∧
        ∀ result, errand.phase = .ended result →
          result = .error .closed ∨ result = .error .noReply

/-- A request is answered once when it has been carried out, and not before. -/
theorem Follows.repliesTo_of_accepted {served : List Request}
    (follows : shared.Follows service served) (ticketed : shared.Ticketed) {position : Nat}
    {call : ServiceCall} (here : (accepted shared.sent)[position]? = some (call, some ticket))
    {target : CellId}
    (answered : InferenceService.answerAt? service shared.calls position = some target) :
    shared.task.repliesTo ticket = [target] ∨
      shared.task.closed = false ∧ shared.task.repliesTo ticket = [] := by
  obtain ⟨waiting, grown⟩ := follows.served_prefix
  by_cases inside : position < served.length
  · have carriedOut : served[position]? = some (call, some ticket) := by
      rw [← List.getElem?_append_left inside, grown, here]
    obtain ⟨answer, replied, once⟩ := follows.replied position call ticket carriedOut
    have same := (answered_of_grown follows.served_prefix carriedOut replied).2
    cases answered.symm.trans same
    exact .inl once
  · refine .inr ⟨?_, follows.silent ticket ?_⟩
    · cases closed : shared.task.closed with
      | false => rfl
      | true =>
          have whole := (follows.left (follows.closed closed)).1
          rw [whole] at here
          exact absurd (List.getElem?_eq_some_iff.mp here).1 inside
    · intro other member
      obtain ⟨earlier, there⟩ := List.mem_iff_getElem?.mp member
      have before := (List.getElem?_eq_some_iff.mp there).1
      rw [← List.getElem?_append_left before, grown] at there
      rw [ticketed.position_unique here there] at inside
      exact inside before

/-- The caller of an accepted evaluation hears its answer. -/
theorem Justified.eq_of_accepted (justified : Justified service shared ticket errand)
    (ticketed : shared.Ticketed) (evaluation : errand.call.isEvaluation = true) {position : Nat}
    {call : ServiceCall} (here : (accepted shared.sent)[position]? = some (call, some ticket))
    {target : CellId}
    (answered : InferenceService.answerAt? service shared.calls position = some target)
    {result : Except TaskError (Option CellId)} (ended : errand.phase = .ended result) :
    result = .ok (some target) := by
  rw [Justified, ended] at justified
  match result with
  | .ok (some other) =>
      obtain ⟨second, _, there, heard⟩ := justified
      rw [← ticketed.position_unique here there, answered] at heard
      cases heard
      rfl
  | .ok none => cases evaluation.symm.trans justified
  | .error _ => exact absurd (List.mem_of_getElem? here) (justified.2 call)

/-- The caller of any other evaluation hears a failure. -/
theorem Justified.error_of_unaccepted (justified : Justified service shared ticket errand)
    (evaluation : errand.call.isEvaluation = true)
    (unaccepted : ∀ call, (call, some ticket) ∉ accepted shared.sent)
    {result : Except TaskError (Option CellId)} (ended : errand.phase = .ended result) :
    result = .error .closed ∨ result = .error .noReply := by
  rw [Justified, ended] at justified
  match result with
  | .ok (some other) =>
      obtain ⟨_, call, there, _⟩ := justified
      exact absurd (List.mem_of_getElem? there) (unaccepted call)
  | .ok none => cases evaluation.symm.trans justified
  | .error .closed => exact .inl rfl
  | .error .noReply => exact .inr rfl

theorem Follows.sequential [AnswersEvaluations σ] {served : List Request}
    (follows : shared.Follows service served) (ticketed : shared.Ticketed)
    (settled : shared.Settled service) : shared.Sequential service where
  given_back := by
    intro closed
    rw [calls, (follows.left (follows.closed closed)).1, List.length_map]
    exact ⟨follows.service_eq, follows.handled_eq⟩
  ended := by
    intro closed steady
    exact ⟨(follows.left (follows.closed closed)).2.resolve_left steady, map_accepted steady⟩
  answered := by
    intro position call carried here evaluation
    obtain ⟨carries, owner⟩ := ticketed.of_accepted (List.mem_of_getElem? here)
    obtain ⟨ticket, rfl⟩ := Option.isSome_iff_exists.mp (carries.trans evaluation)
    obtain ⟨errand, known, asked⟩ := owner ticket rfl
    have called : shared.calls[position]? = some call := by
      rw [calls, List.getElem?_map, here]
      rfl
    obtain ⟨target, answered⟩ := InferenceService.exists_answerAt? service called evaluation
    refine ⟨ticket, errand, target, rfl, known, asked, answered,
      follows.repliesTo_of_accepted ticketed here answered, ?_⟩
    intro result
    exact (settled ticket errand known).eq_of_accepted ticketed (by rw [asked]; exact evaluation)
      here answered
  refused := by
    intro ticket errand known evaluation unaccepted
    refine ⟨follows.silent ticket ?_, fun result =>
      (settled ticket errand known).error_of_unaccepted evaluation unaccepted⟩
    exact fun call member => unaccepted call (follows.served_prefix.subset member)

/-- Whatever the callers do and however task and callers take turns, a shared task
works as the service alone does on the accepted requests.  It comes to rest, and
then every caller has its result. -/
theorem shared_task_is_sequential [AnswersEvaluations σ] (service : σ) {capacity : Nat}
    (positive : 0 < capacity) {events : List Event} {shared : SharedTask σ ω}
    (runs : Runs (spawn service capacity) events shared) :
    shared.Sequential service ∧
      events.countP Event.isInternal ≤ 3 * events.countP Event.isBegin + 2 ∧
      (shared.AtRest → (∀ errand ∈ shared.errands, errand.Ended) ∧
        (shared.task.closed = true ∨ shared.handles ≠ [] ∧ .shutdown ∉ shared.sent)) := by
  obtain ⟨ticketed, served, follows⟩ := runs.invariants service positive
  refine ⟨follows.sequential ticketed (runs.settled positive), ?_, ?_⟩
  · exact Nat.le_of_add_right_le (runs.internal_le positive)
  · exact fun rest => rest.ended follows ticketed

/-- A caller sends a shutdown between two evaluations of another one, and a third
evaluation comes when the task has stopped. -/
def interrupted : List Event :=
  let evaluation : TaskCall := .request (.evaluate ⟨20⟩ ⟨100⟩ 40 12)
  [.clone 0, .begin 0 (.request (.serve ⟨0⟩ ⟨7⟩ ⟨1⟩ ⟨100⟩)), .send 0, .work,
    .begin 0 (.request (.neighbour ⟨10⟩ ⟨100⟩ ⟨6⟩ 50 30)), .send 1, .begin 1 evaluation,
    .send 2, .work, .begin 0 .shutdown, .send 3, .work, .begin 1 evaluation, .send 4, .work,
    .close, .receive 4, .receive 2, .begin 1 evaluation, .send 5]

theorem shared_task_is_sequential_interrupted :
    ∃ (service : Service (Extended ℚ)) (shared : SharedTask (Service (Extended ℚ)) _),
      Service.typeOne Service.eager = .ok service ∧
        Runs (spawn service 2) interrupted shared ∧ shared.Sequential service ∧
        shared.task.closed = true ∧ shared.errands.map Errand.phase =
          [.ended (.ok none), .ended (.ok none), .ended (.ok (some ⟨6⟩)), .ended (.ok none),
            .ended (.error .noReply), .ended (.error .closed)] := by
  have played : (Service.typeOne Service.eager).toOption.any (fun service =>
      ((spawn service 2).replay? interrupted).any fun shared =>
        shared.task.closed = true ∧ shared.errands.map Errand.phase =
          [.ended (.ok none), .ended (.ok none), .ended (.ok (some ⟨6⟩)), .ended (.ok none),
            .ended (.error .noReply), .ended (.error .closed)]) = true := by
    decide +kernel
  obtain ⟨service, built, played⟩ := exists_of_any_toOption played
  obtain ⟨shared, replayed, heard⟩ := (Option.any_eq_true _ _).mp played
  have runs := runs_of_replay? replayed
  exact ⟨service, shared, built, runs, (shared_task_is_sequential service (by decide) runs).1,
    of_decide_eq_true heard⟩

end SharedTask

end Handover
