import Handover.Service

/-!
# The service task

A service behind a bounded queue, so that several callers can share it.  The
task takes messages strictly in the order of arrival until it is told to shut
down or no caller is left.  It then closes the queue and drops what is still in
it.  An evaluation carries a ticket, under which its caller receives the answer
or learns that the request was dropped.

Caller and task take turns: the task works only while the caller waits, and a
caller that has not waited for `turnLength` steps has to.
-/

namespace Handover

/-- A message to the task. -/
inductive TaskMessage where
  /-- Carry out a call; whoever holds the ticket waits for the answer. -/
  | request (call : ServiceCall) (ticket : Option Nat)
  /-- Stop. -/
  | shutdown
deriving DecidableEq, Repr

/-- Why a call of the task fails. -/
inductive TaskError where
  /-- The task has stopped. -/
  | closed
  /-- The task stopped before it came to the request. -/
  | noReply
deriving DecidableEq, Repr

namespace TaskError

/-- Text of a failure. -/
def message : TaskError → String
  | closed => "Inference task is not running"
  | noReply => "Inference task dropped the request without replying"

end TaskError

/-- A task around a service `σ` with warnings `ω`. -/
structure Task (σ ω : Type) where
  /-- The service. -/
  service : σ
  /-- Most messages that wait at a time. -/
  capacity : Nat
  /-- Messages that wait, oldest first. -/
  queue : List TaskMessage
  /-- Steps that the caller may take before it has to wait. -/
  turn : Nat
  /-- The task has stopped. -/
  closed : Bool
  /-- Number of requests carried out, counted without end. -/
  handled : Nat
  /-- Answers by ticket, latest first. -/
  replies : List (Nat × CellId)
  /-- Warnings, in order. -/
  warnings : List ω

namespace Task

variable {σ ω : Type} [InferenceService σ ω]

/-- Most steps of a caller between two waits.  A message sent is a step, and so is
an answer received. -/
def turnLength : Nat :=
  128

/-- A task without messages. -/
def spawn (service : σ) (capacity : Nat) : Task σ ω :=
  ⟨service, capacity, [], turnLength, false, 0, [], []⟩

/-- Most messages that a queue can be made for. -/
def greatestCapacity : Nat :=
  UInt64.size / 8 - 1

/-- A task whose queue has room for a message and is not too large. -/
def spawn? (service : σ) (capacity : Nat) : Option (Task σ ω) :=
  if 0 < capacity ∧ capacity ≤ greatestCapacity then some (spawn service capacity) else none

/-- Carries out a request and delivers its answer. -/
def serve (task : Task σ ω) (call : ServiceCall) (ticket : Option Nat) : Task σ ω :=
  let step := InferenceService.handle task.service call
  { task with
    service := step.service
    handled := task.handled + 1
    replies :=
      match ticket, step.answer with
      | some ticket, some answer => (ticket, answer) :: task.replies
      | _, _ => task.replies
    warnings := task.warnings ++ step.warnings }

/-- Stops the task and drops the messages that still wait. -/
def stop (task : Task σ ω) : Task σ ω :=
  { task with queue := [], closed := true }

/-- Takes one message, if there is one. -/
def work (task : Task σ ω) : Task σ ω :=
  match task.queue with
  | [] => task
  | .shutdown :: _ => task.stop
  | .request call ticket :: rest => { task with queue := rest }.serve call ticket

/-- Takes messages in order until none is left or one of them is a shutdown. -/
def serveAll (task : Task σ ω) : List TaskMessage → Task σ ω
  | [] => { task with queue := [] }
  | .shutdown :: _ => task.stop
  | .request call ticket :: rest => (task.serve call ticket).serveAll rest

/-- Takes all waiting messages. -/
def drain (task : Task σ ω) : Task σ ω :=
  task.serveAll task.queue

/-- The task after the last caller has gone. -/
def finish (task : Task σ ω) : Task σ ω :=
  task.drain.stop

/-- A message can wait in the queue. -/
def HasRoom (task : Task σ ω) : Prop :=
  task.queue.length < task.capacity

instance (task : Task σ ω) : Decidable task.HasRoom :=
  inferInstanceAs (Decidable (_ < _))

/-- Adds a message to the queue. -/
def enqueue (task : Task σ ω) (message : TaskMessage) : Task σ ω :=
  { task with queue := task.queue ++ [message] }

/-- The caller waits while the task takes all messages. -/
def giveWay (task : Task σ ω) : Task σ ω :=
  { task.drain with turn := turnLength }

/-- The caller takes a step. -/
def step (task : Task σ ω) : Task σ ω :=
  { task with turn := task.turn - 1 }

/-- Sends a message.  The caller waits if its turn is over, and it waits for
room. -/
def send (task : Task σ ω) (message : TaskMessage) : Task σ ω × Except TaskError Unit :=
  let begun := if task.turn = 0 then task.giveWay else task
  let ready := if begun.closed ∨ begun.HasRoom then begun else begun.giveWay
  if ready.closed then (ready.step, .error .closed) else (ready.step.enqueue message, .ok ())

/-- The answer delivered under a ticket. -/
def reply? (task : Task σ ω) (ticket : Nat) : Option CellId :=
  (task.replies.find? fun entry => entry.1 == ticket).map Prod.snd

/-- Sends a request and waits for its answer, which arrives under the given
ticket. -/
def ask (task : Task σ ω) (call : ServiceCall) (ticket : Nat) :
    Task σ ω × Except TaskError CellId :=
  match task.send (.request call (some ticket)) with
  | (sent, .error error) => (sent, .error error)
  | (sent, .ok ()) =>
    let answered := sent.giveWay.step
    match answered.reply? ticket with
    | some target => (answered, .ok target)
    | none => (answered, .error .noReply)

end Task

end Handover
