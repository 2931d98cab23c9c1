import Handover.Task

/-!
# A task that several callers share

Callers hold handles of a task, which can be cloned and dropped.  A call goes
through a handle: its message waits for room in the queue, and the caller of an
evaluation then waits for the answer.  Callers and task take their steps in any
order.

The task leaves its loop when it takes a shutdown, or when it finds the queue
empty and no handle left.  The queue is closed a step later.  A message that is
sent in between is dropped like those that still wait.
-/

namespace Handover

/-- The call has an answer. -/
def ServiceCall.isEvaluation : ServiceCall → Bool
  | evaluate _ _ _ _ => true
  | _ => false

/-- What can be asked of a task. -/
inductive TaskCall where
  /-- Carry out a call of the service. -/
  | request (call : ServiceCall)
  /-- Stop. -/
  | shutdown
deriving DecidableEq, Repr

/-- How far a call of a task has come. -/
inductive CallPhase where
  /-- Its message waits for room. -/
  | sending
  /-- Its message is sent, and the caller waits for the answer. -/
  | waiting
  /-- The caller has a result: the answer of an evaluation, or none of another
  call. -/
  | ended (result : Except TaskError (Option CellId))

namespace TaskCall

/-- The caller waits for an answer. -/
def isEvaluation : TaskCall → Bool
  | request call => call.isEvaluation
  | shutdown => false

/-- The message of a call.  An answer arrives under the ticket. -/
def message (ticket : Nat) : TaskCall → TaskMessage
  | request call => .request call (if call.isEvaluation then some ticket else none)
  | shutdown => .shutdown

/-- How far the call has come once its message is sent. -/
def sentPhase (call : TaskCall) : CallPhase :=
  if call.isEvaluation then .waiting else .ended (.ok none)

end TaskCall

/-- A call of a task through a handle. -/
structure Errand where
  handle : Nat
  call : TaskCall
  phase : CallPhase

/-- The caller has its result. -/
def Errand.Ended (errand : Errand) : Prop :=
  ∃ result, errand.phase = .ended result

/-- A task with its handles and the calls through them. -/
structure SharedTask (σ ω : Type) where
  task : Task σ ω
  /-- The task has left its loop. -/
  leaving : Bool
  /-- Handles that are held. -/
  handles : List Nat
  /-- Number of handles ever made. -/
  made : Nat
  /-- Calls so far.  The place of a call is its ticket. -/
  errands : List Errand
  /-- Messages that came into the queue, in order. -/
  sent : List TaskMessage

namespace SharedTask

/-- What happens to a shared task. -/
inductive Event where
  | clone (handle : Nat)
  | drop (handle : Nat)
  | begin (handle : Nat) (call : TaskCall)
  | send (ticket : Nat)
  | receive (ticket : Nat)
  | work
  | close
deriving DecidableEq, Repr

/-- The event takes no decision of a caller. -/
def Event.isInternal : Event → Bool
  | clone _ | drop _ | begin _ _ => false
  | send _ | receive _ | work | close => true

/-- The event is the beginning of a call. -/
def Event.isBegin : Event → Bool
  | begin _ _ => true
  | _ => false

variable {σ ω : Type}

/-- A call has come to a phase. -/
def advance (shared : SharedTask σ ω) (ticket : Nat) (errand : Errand) (phase : CallPhase) :
    SharedTask σ ω :=
  { shared with errands := shared.errands.set ticket { errand with phase := phase } }

/-- A new task with one handle. -/
def spawn (service : σ) (capacity : Nat) : SharedTask σ ω :=
  ⟨.spawn service capacity, false, [0], 1, [], []⟩

variable [InferenceService σ ω]

/-- What an event makes of a shared task. -/
inductive Step (shared : SharedTask σ ω) : Event → SharedTask σ ω → Prop where
  /-- The holder of a handle makes another one. -/
  | clone {handle : Nat} (held : handle ∈ shared.handles) :
      Step shared (.clone handle)
        { shared with handles := shared.made :: shared.handles, made := shared.made + 1 }
  /-- A handle is dropped, through which no call is under way. -/
  | drop {handle : Nat} (held : handle ∈ shared.handles)
      (idle : ∀ errand ∈ shared.errands, errand.handle = handle → errand.Ended) :
      Step shared (.drop handle) { shared with handles := shared.handles.filter (· ≠ handle) }
  /-- A call begins. -/
  | begin {handle : Nat} (held : handle ∈ shared.handles) (call : TaskCall) :
      Step shared (.begin handle call)
        { shared with errands := shared.errands ++ [⟨handle, call, .sending⟩] }
  /-- A message comes into the queue. -/
  | send {ticket : Nat} {errand : Errand} (begun : shared.errands[ticket]? = some errand)
      (sending : errand.phase = .sending) (opened : shared.task.closed = false)
      (room : shared.task.HasRoom) :
      Step shared (.send ticket)
        { shared.advance ticket errand errand.call.sentPhase with
          task := shared.task.enqueue (errand.call.message ticket)
          sent := shared.sent ++ [errand.call.message ticket] }
  /-- The queue is closed. -/
  | refuse {ticket : Nat} {errand : Errand} (begun : shared.errands[ticket]? = some errand)
      (sending : errand.phase = .sending) (closed : shared.task.closed = true) :
      Step shared (.send ticket) (shared.advance ticket errand (.ended (.error .closed)))
  /-- An answer arrives. -/
  | receive {ticket : Nat} {errand : Errand} (begun : shared.errands[ticket]? = some errand)
      (waiting : errand.phase = .waiting) {target : CellId}
      (replied : shared.task.reply? ticket = some target) :
      Step shared (.receive ticket) (shared.advance ticket errand (.ended (.ok (some target))))
  /-- The request was dropped, and with it the way to answer. -/
  | miss {ticket : Nat} {errand : Errand} (begun : shared.errands[ticket]? = some errand)
      (waiting : errand.phase = .waiting) (closed : shared.task.closed = true)
      (unreplied : shared.task.reply? ticket = none) :
      Step shared (.receive ticket) (shared.advance ticket errand (.ended (.error .noReply)))
  /-- The task carries out a request. -/
  | serve {call : ServiceCall} {ticket : Option Nat} {rest : List TaskMessage}
      (running : shared.leaving = false) (next : shared.task.queue = .request call ticket :: rest) :
      Step shared .work { shared with task := shared.task.work }
  /-- The task takes a shutdown. -/
  | leave {rest : List TaskMessage} (running : shared.leaving = false)
      (next : shared.task.queue = .shutdown :: rest) :
      Step shared .work
        { shared with task := { shared.task with queue := rest }, leaving := true }
  /-- The task finds nobody who could send a message. -/
  | desert (running : shared.leaving = false) (empty : shared.task.queue = [])
      (alone : shared.handles = []) : Step shared .work { shared with leaving := true }
  /-- The task has ended. -/
  | close (left : shared.leaving = true) (opened : shared.task.closed = false) :
      Step shared .close { shared with task := shared.task.stop }

/-- The shared tasks that events lead to. -/
inductive Runs (start : SharedTask σ ω) : List Event → SharedTask σ ω → Prop where
  | nil : Runs start [] start
  | snoc {events : List Event} {shared next : SharedTask σ ω} {event : Event}
      (earlier : Runs start events shared) (step : shared.Step event next) :
      Runs start (events ++ [event]) next

/-- Nothing happens before a caller decides on something. -/
def AtRest (shared : SharedTask σ ω) : Prop :=
  ∀ event next, event.isInternal = true → ¬shared.Step event next

end SharedTask

/-! ## The sequential service -/

namespace InferenceService

variable {σ ω : Type} [InferenceService σ ω]

/-- The service after calls in order. -/
def run (service : σ) (calls : List ServiceCall) : σ :=
  calls.foldl (fun current call => (handle current call).service) service

/-- What the service answers to the call at a position, the calls before it having
been carried out in order. -/
def answerAt? (service : σ) (calls : List ServiceCall) (position : Nat) : Option CellId :=
  calls[position]?.bind fun call => (handle (run service (calls.take position)) call).answer

@[simp]
theorem run_nil (service : σ) : run service [] = service :=
  rfl

theorem run_concat (service : σ) (calls : List ServiceCall) (call : ServiceCall) :
    run service (calls ++ [call]) = (handle (run service calls) call).service := by
  simp [run]

/-- Later calls change no answer. -/
theorem answerAt?_append (service : σ) {calls : List ServiceCall} {position : Nat}
    (inside : position < calls.length) (later : List ServiceCall) :
    answerAt? service (calls ++ later) position = answerAt? service calls position := by
  simp only [answerAt?]
  rw [List.getElem?_append_left inside, List.take_append_of_le_length (Nat.le_of_lt inside)]

theorem answerAt?_concat (service : σ) (calls : List ServiceCall) (call : ServiceCall) :
    answerAt? service (calls ++ [call]) calls.length =
      (handle (run service calls) call).answer := by
  simp [answerAt?]

end InferenceService

/-! ## Answers -/

namespace Task

variable {σ ω : Type}

/-- The answers delivered under a ticket, latest first. -/
def repliesTo (task : Task σ ω) (ticket : Nat) : List CellId :=
  (task.replies.filter fun entry => entry.1 == ticket).map Prod.snd

theorem reply?_eq_head? (task : Task σ ω) (ticket : Nat) :
    task.reply? ticket = (task.repliesTo ticket).head? := by
  simp [reply?, repliesTo]

theorem repliesTo_serve [InferenceService σ ω] (task : Task σ ω) (call : ServiceCall)
    (ticket : Option Nat) (other : Nat) :
    (task.serve call ticket).repliesTo other =
      if ticket = some other then
        (InferenceService.handle task.service call).answer.toList ++ task.repliesTo other
      else task.repliesTo other := by
  cases ticket with
  | none => rfl
  | some ticket =>
      cases answered : (InferenceService.handle task.service call).answer with
      | none => simp [serve, repliesTo, answered]
      | some target =>
          by_cases same : ticket = other <;> simp [serve, repliesTo, answered, same]

section Work

variable [InferenceService σ ω] {task : Task σ ω} {call : ServiceCall} {ticket : Option Nat}
  {rest : List TaskMessage}

theorem work_request (next : task.queue = .request call ticket :: rest) :
    task.work = { task with queue := rest }.serve call ticket := by
  rw [work, next]

theorem repliesTo_work (next : task.queue = .request call ticket :: rest) (other : Nat) :
    task.work.repliesTo other =
      if ticket = some other then
        (InferenceService.handle task.service call).answer.toList ++ task.repliesTo other
      else task.repliesTo other := by
  rw [work_request next, repliesTo_serve]
  rfl

end Work

end Task

/-- A service that answers every evaluation and nothing else. -/
class AnswersEvaluations (σ : Type) {ω : outParam Type} [InferenceService σ ω] : Prop where
  isSome_answer : ∀ (service : σ) (call : ServiceCall),
    (InferenceService.handle service call).answer.isSome = call.isEvaluation

instance {α : Type} [Scalar α] : AnswersEvaluations (Service α) where
  isSome_answer service call := by
    cases call with
    | serve _ _ _ _ => rfl
    | neighbour _ _ _ _ _ => rfl
    | evaluate time rnti rsrp rsrq =>
        change (service.evaluate time rnti rsrq).answer.isSome = true
        unfold Service.evaluate
        split <;> rfl

/-! ## Messages -/

namespace TaskMessage

/-- A request without the wrapping of a message. -/
abbrev Request :=
  ServiceCall × Option Nat

/-- The message of a request. -/
def ofRequest (entry : Request) : TaskMessage :=
  .request entry.1 entry.2

/-- The ticket under which an answer is awaited. -/
def ticket? : TaskMessage → Option Nat
  | request _ ticket => ticket
  | shutdown => none

/-- The requests before the first shutdown. -/
def accepted : List TaskMessage → List Request
  | [] => []
  | .shutdown :: _ => []
  | .request call ticket :: rest => (call, ticket) :: accepted rest

@[simp]
theorem accepted_requests (requests : List Request) (rest : List TaskMessage) :
    accepted (requests.map ofRequest ++ rest) = requests ++ accepted rest := by
  induction requests with
  | nil => rfl
  | cons entry requests ih => simp [ofRequest, accepted, ih]

/-- Nothing is accepted behind a shutdown. -/
theorem accepted_append_of_shutdown {messages : List TaskMessage}
    (stopped : .shutdown ∈ messages) (later : List TaskMessage) :
    accepted (messages ++ later) = accepted messages := by
  induction messages with
  | nil => cases stopped
  | cons message rest ih =>
      cases message with
      | shutdown => rfl
      | request call ticket =>
          have behind : .shutdown ∈ rest := by simpa using stopped
          simp [accepted, ih behind]

theorem accepted_prefix (messages later : List TaskMessage) :
    accepted messages <+: accepted (messages ++ later) := by
  induction messages with
  | nil => exact List.nil_prefix
  | cons message rest ih =>
      cases message with
      | shutdown => exact List.prefix_rfl
      | request call ticket => simpa [accepted] using ih

theorem mem_of_mem_accepted {messages : List TaskMessage} {entry : Request}
    (member : entry ∈ accepted messages) : ofRequest entry ∈ messages := by
  induction messages with
  | nil => cases member
  | cons message rest ih =>
      cases message with
      | shutdown => cases member
      | request call ticket =>
          rcases List.mem_cons.mp member with rfl | later
          · exact List.mem_cons_self
          · exact List.mem_cons_of_mem _ (ih later)

/-- Tickets of accepted requests are tickets of messages, in order. -/
theorem tickets_accepted_sublist (messages : List TaskMessage) :
    ((accepted messages).filterMap Prod.snd).Sublist (messages.filterMap ticket?) := by
  induction messages with
  | nil => exact List.Sublist.refl _
  | cons message rest ih =>
      cases message with
      | shutdown => exact List.nil_sublist _
      | request call ticket =>
          cases ticket with
          | none => exact ih
          | some ticket => exact ih.cons_cons ticket

end TaskMessage

end Handover
