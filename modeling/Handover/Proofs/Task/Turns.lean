import Handover.Proofs.Task.Rest

/-!
# One caller taking turns with the task

A caller who is alone with the task sends a message, or sends a request and waits
for its answer.  Each of these is a run of the shared task, and so is a session of
any number of them, so what holds of every run holds here.  Turns decide only when
the task works.
-/

namespace Handover

open TaskMessage

namespace Task

variable {σ ω : Type} [InferenceService σ ω]

/-- The task when the caller takes its step, the caller having waited if its turn was
over. -/
def begun (task : Task σ ω) : Task σ ω :=
  if task.turn = 0 then task.giveWay else task

/-- The task when a message of the caller can be placed, or is refused. -/
def ready (task : Task σ ω) : Task σ ω :=
  if task.begun.closed ∨ task.begun.HasRoom then task.begun else task.begun.giveWay

theorem send_eq (task : Task σ ω) (message : TaskMessage) :
    task.send message =
      if task.ready.closed then (task.ready.step, .error .closed)
      else (task.ready.step.enqueue message, .ok ()) :=
  rfl

/-- What a caller hears who has waited. -/
def heard (task : Task σ ω) (ticket : Nat) : Except TaskError CellId :=
  match task.reply? ticket with
  | some target => .ok target
  | none => .error .noReply

theorem ask_eq (task : Task σ ω) (call : ServiceCall) (ticket : Nat) :
    task.ask call ticket =
      match task.send (.request call (some ticket)) with
      | (sent, .error error) => (sent, .error error)
      | (sent, .ok ()) => (sent.giveWay.step, sent.giveWay.heard ticket) := by
  rw [ask]
  rcases task.send (.request call (some ticket)) with ⟨sent, error | _⟩
  · rfl
  · change (match sent.giveWay.reply? ticket with
      | some target => (sent.giveWay.step, Except.ok target)
      | none => (sent.giveWay.step, Except.error TaskError.noReply)) =
        (sent.giveWay.step, sent.giveWay.heard ticket)
    rw [heard]
    cases sent.giveWay.reply? ticket <;> rfl

@[simp]
theorem queue_serveAll (task : Task σ ω) (messages : List TaskMessage) :
    (task.serveAll messages).queue = [] := by
  induction messages generalizing task with
  | nil => rfl
  | cons message rest ih =>
      cases message with
      | shutdown => rfl
      | request call ticket => exact ih _

@[simp]
theorem capacity_serveAll (task : Task σ ω) (messages : List TaskMessage) :
    (task.serveAll messages).capacity = task.capacity := by
  induction messages generalizing task with
  | nil => rfl
  | cons message rest ih =>
      cases message with
      | shutdown => rfl
      | request call ticket => exact ih _

theorem hasRoom_giveWay {task : Task σ ω} (positive : 0 < task.capacity) :
    task.giveWay.HasRoom := by
  change (task.serveAll task.queue).queue.length < (task.serveAll task.queue).capacity
  rw [queue_serveAll, capacity_serveAll]
  exact positive

theorem capacity_begun (task : Task σ ω) : task.begun.capacity = task.capacity := by
  rw [begun]
  split
  · exact task.capacity_serveAll task.queue
  · rfl

theorem hasRoom_ready {task : Task σ ω} (positive : 0 < task.capacity)
    (opened : task.ready.closed = false) : task.ready.HasRoom := by
  rw [ready] at opened ⊢
  split
  · next placed =>
    rw [if_pos placed] at opened
    exact placed.resolve_left (Bool.eq_false_iff.mp opened)
  · exact hasRoom_giveWay (by rw [capacity_begun]; exact positive)

/-- A call of a caller who is alone, with its result: the caller asks if there is an answer
to wait for, and else it sends. -/
def call (task : Task σ ω) (ticket : Nat) (call : TaskCall) :
    Task σ ω × Except TaskError (Option CellId) :=
  match call with
  | .request wanted =>
    if wanted.isEvaluation then (task.ask wanted ticket).map id (Except.map some)
    else (task.send (.request wanted none)).map id (Except.map fun _ => none)
  | .shutdown => (task.send .shutdown).map id (Except.map fun _ => none)

theorem call_of_sent (task : Task σ ω) (ticket : Nat) {call : TaskCall}
    (sent : call.isEvaluation = false) :
    task.call ticket call =
      (task.send (call.message ticket)).map id (Except.map fun _ => none) := by
  cases call with
  | request wanted =>
      have silent : wanted.isEvaluation = false := sent
      simp only [Task.call, TaskCall.message, silent, Bool.false_eq_true, if_false]
  | shutdown => rfl

/-- Calls one after the other, with their results. -/
def session (task : Task σ ω) (ticket : Nat) :
    List TaskCall → Task σ ω × List (Except TaskError (Option CellId))
  | [] => (task, [])
  | call :: rest =>
    let made := task.call ticket call
    let later := made.1.session (ticket + 1) rest
    (later.1, made.2 :: later.2)

end Task

namespace SharedTask

variable {σ ω : Type} [InferenceService σ ω]

theorem Runs.append {start shared final : SharedTask σ ω} {events later : List Event}
    (runs : Runs start events shared) (further : Runs shared later final) :
    Runs start (events ++ later) final := by
  induction further with
  | nil =>
      rw [List.append_nil]
      exact runs
  | snoc _ step ih =>
      rw [← List.append_assoc]
      exact .snoc ih step

theorem Runs.cons {start shared final : SharedTask σ ω} {event : Event} {later : List Event}
    (step : start.Step event shared) (further : Runs shared later final) :
    Runs start (event :: later) final :=
  Runs.append (.snoc .nil step) further

/-- The shared task is the task of a caller who is alone with it, up to the steps left
in the turn of the caller. -/
structure Shows (shared : SharedTask σ ω) (task : Task σ ω) : Prop where
  task_eq : ∃ turn, shared.task = { task with turn := turn }
  leaving_eq : shared.leaving = task.closed
  dropped : task.closed = true → task.queue = []

omit [InferenceService σ ω] in
theorem shows_spawn (service : σ) (capacity : Nat) :
    (spawn service capacity : SharedTask σ ω).Shows (.spawn service capacity) :=
  ⟨⟨Task.turnLength, rfl⟩, rfl, nofun⟩

/-- A run in which only the task works. -/
def Works (shared next : SharedTask σ ω) : Prop :=
  ∃ events, Runs shared events next ∧ next.handles = shared.handles ∧
    next.errands = shared.errands

variable {shared : SharedTask σ ω} {task : Task σ ω}

theorem works_serveAll {messages : List TaskMessage} {turn : Nat}
    (same : shared.task = { task with queue := messages, turn := turn })
    (running : shared.leaving = false) (opened : task.closed = false) :
    ∃ next, shared.Works next ∧ next.Shows (task.serveAll messages) := by
  induction messages generalizing shared task with
  | nil =>
      refine ⟨shared, ⟨[], .nil, rfl, rfl⟩, ⟨turn, same⟩, ?_, fun _ => rfl⟩
      rw [running, ← opened]
      rfl
  | cons message rest ih =>
      have head : shared.task.queue = message :: rest := by rw [same]
      cases message with
      | shutdown =>
          have still : shared.task.closed = false := by rw [same, ← opened]
          refine ⟨_, ⟨_, .cons (.leave running head) (.cons (.close rfl still) .nil), rfl, rfl⟩,
            ⟨turn, ?_⟩, rfl, fun _ => rfl⟩
          rw [same]
          rfl
      | request call ticket =>
          have served : shared.task.work =
              { task.serve call ticket with queue := rest, turn := turn } := by
            rw [Task.work_request head, same]
            rfl
          obtain ⟨next, ⟨events, runs, handles, errands⟩, shows⟩ :=
            @ih { shared with task := shared.task.work } _ served running opened
          exact ⟨next, ⟨_, .cons (.serve running head) runs, handles, errands⟩, shows⟩

/-- The task takes all messages. -/
theorem Shows.drain (shows : shared.Shows task) :
    ∃ next, shared.Works next ∧ next.Shows task.drain := by
  obtain ⟨⟨turn, same⟩, leaving, dropped⟩ := shows
  cases closed : task.closed with
  | false => exact works_serveAll same (leaving.trans closed) closed
  | true =>
      have empty := dropped closed
      have idle : task.drain = task := by
        rw [Task.drain, empty, Task.serveAll, ← empty]
      rw [idle]
      exact ⟨shared, ⟨[], .nil, rfl, rfl⟩, ⟨turn, same⟩, leaving, dropped⟩

theorem Works.trans {middle next : SharedTask σ ω} (first : shared.Works middle)
    (second : middle.Works next) : shared.Works next := by
  obtain ⟨events, runs, handles, errands⟩ := first
  obtain ⟨later, further, sameHandles, sameErrands⟩ := second
  exact ⟨events ++ later, runs.append further, sameHandles.trans handles,
    sameErrands.trans errands⟩

/-- The caller waits. -/
theorem Shows.giveWay (shows : shared.Shows task) :
    ∃ next, shared.Works next ∧ next.Shows task.giveWay := by
  obtain ⟨next, works, drained⟩ := shows.drain
  exact ⟨next, works, drained.task_eq, drained.leaving_eq, drained.dropped⟩

/-- The caller waits if its turn is over, and for room. -/
theorem Shows.ready (shows : shared.Shows task) :
    ∃ next, shared.Works next ∧ next.Shows task.ready := by
  have begun : ∃ next, shared.Works next ∧ next.Shows task.begun := by
    rw [Task.begun]
    split
    · exact shows.giveWay
    · exact ⟨shared, ⟨[], .nil, rfl, rfl⟩, shows⟩
  obtain ⟨middle, works, shown⟩ := begun
  rw [Task.ready]
  split
  · exact ⟨middle, works, shown⟩
  · obtain ⟨next, further, ready⟩ := shown.giveWay
    exact ⟨next, works.trans further, ready⟩

/-- How far a call has come when its message has been sent or refused. -/
def phaseAfter (call : TaskCall) : Except TaskError Unit → CallPhase
  | .ok () => call.sentPhase
  | .error error => .ended (.error error)

omit [InferenceService σ ω] in
/-- The last call comes to another phase. -/
theorem advance_last (shared : SharedTask σ ω) (errands : List Errand) (errand : Errand)
    (phase : CallPhase) :
    (advance { shared with errands := errands ++ [errand] } errands.length errand phase).errands =
      errands ++ [{ errand with phase := phase }] := by
  simp [advance, List.set_append_right]

/-- A caller sends the message of a call. -/
theorem Shows.send (shows : shared.Shows task) (positive : 0 < task.capacity) {handle : Nat}
    (held : handle ∈ shared.handles) (call : TaskCall) :
    let sent := task.send (call.message shared.errands.length)
    ∃ events next, Runs shared events next ∧ next.Shows sent.1 ∧ next.handles = shared.handles ∧
      next.errands = shared.errands ++ [⟨handle, call, phaseAfter call sent.2⟩] := by
  intro sent
  -- The message is noticed only when it is placed or refused, so the call may begin then.
  obtain ⟨ready, ⟨events, runs, handles, errands⟩, ⟨turn, same⟩, leaving, dropped⟩ := shows.ready
  have begins := runs.snoc (.begin (by rw [handles]; exact held) call)
  have last : (ready.errands ++ [⟨handle, call, .sending⟩])[ready.errands.length]? =
      some ⟨handle, call, .sending⟩ := List.getElem?_concat_length
  have outcome : sent = _ := Task.send_eq task (call.message shared.errands.length)
  cases closed : task.ready.closed with
  | true =>
      rw [if_pos closed] at outcome
      rw [outcome, ← errands]
      have stopped : ready.task.closed = true := by rw [same, ← closed]
      exact ⟨_, _, begins.snoc (.refuse last rfl stopped), ⟨⟨turn, same⟩, leaving, dropped⟩,
        handles, advance_last ready _ _ _⟩
  | false =>
      rw [if_neg (Bool.eq_false_iff.mp closed)] at outcome
      rw [outcome, ← errands]
      have opened : ready.task.closed = false := by rw [same, ← closed]
      have room : ready.task.HasRoom := by
        rw [same]
        exact Task.hasRoom_ready positive closed
      refine ⟨_, _, begins.snoc (.send last rfl opened room), ⟨⟨turn, ?_⟩, leaving, ?_⟩, handles,
        advance_last ready _ _ _⟩
      · change ready.task.enqueue _ = _
        rw [same]
        rfl
      · intro stopped
        cases closed.symm.trans stopped

/-- A request that was sent to a running task is answered when nothing waits any more. -/
theorem Shows.closed_of_unreplied [AnswersEvaluations σ] {service : σ} {served : List Request}
    (shows : shared.Shows task) (follows : shared.Follows service served)
    (ticketed : shared.Ticketed) (empty : task.queue = []) {ticket : Nat} {errand : Errand}
    (begun : shared.errands[ticket]? = some errand) (waiting : errand.phase = .waiting)
    (unreplied : shared.task.reply? ticket = none) : shared.task.closed = true := by
  obtain ⟨⟨turn, same⟩, leaving, _⟩ := shows
  cases closed : shared.task.closed with
  | true => rfl
  | false =>
      have running : shared.leaving = false := by rw [leaving, ← closed, same]
      have sent : shared.sent = served.map ofRequest := by
        rw [follows.running running, same, empty, List.append_nil]
      have carried := (ticketed.awaited ticket errand begun waiting).2
      obtain ⟨target, replied⟩ := follows.reply_of_carried sent carried
      cases unreplied.symm.trans replied

/-- The last caller takes its answer. -/
theorem Shows.receive [AnswersEvaluations σ] {service : σ} {capacity : Nat}
    (positive : 0 < capacity) {before : List Event}
    (reached : Runs (spawn service capacity) before shared) (shows : shared.Shows task)
    (empty : task.queue = []) {errands : List Errand} {handle : Nat} {call : TaskCall}
    (last : shared.errands = errands ++ [⟨handle, call, .waiting⟩]) :
    ∃ event next, shared.Step event next ∧ next.Shows task.step ∧
      next.handles = shared.handles ∧ next.errands =
        errands ++ [⟨handle, call, .ended ((task.heard errands.length).map some)⟩] := by
  have begun : shared.errands[errands.length]? = some ⟨handle, call, .waiting⟩ := by
    rw [last, List.getElem?_concat_length]
  have changed (result : Except TaskError (Option CellId)) :
      (shared.advance errands.length ⟨handle, call, .waiting⟩ (.ended result)).errands =
        errands ++ [⟨handle, call, .ended result⟩] := by
    simp [advance, last, List.set_append_right]
  have same : shared.task.reply? errands.length = task.reply? errands.length := by
    obtain ⟨_, same⟩ := shows.task_eq
    rw [same]
    rfl
  cases reply : task.reply? errands.length with
  | some target =>
      rw [Task.heard, reply]
      exact ⟨_, _, .receive begun rfl (same.trans reply),
        ⟨shows.task_eq, shows.leaving_eq, shows.dropped⟩, rfl, changed _⟩
  | none =>
      obtain ⟨ticketed, _, follows⟩ := reached.invariants service positive
      have stopped := shows.closed_of_unreplied follows ticketed empty begun rfl (same.trans reply)
      rw [Task.heard, reply]
      exact ⟨_, _, .miss begun rfl stopped (same.trans reply),
        ⟨shows.task_eq, shows.leaving_eq, shows.dropped⟩, rfl, changed _⟩

theorem Shows.roomy [AnswersEvaluations σ] {service : σ} {capacity : Nat}
    (positive : 0 < capacity) {before : List Event}
    (reached : Runs (spawn service capacity) before shared) (shows : shared.Shows task) :
    0 < task.capacity := by
  obtain ⟨_, _, follows⟩ := reached.invariants service positive
  obtain ⟨_, same⟩ := shows.task_eq
  have roomy := follows.roomy
  rw [same] at roomy
  exact roomy

/-- A caller asks and waits for the answer. -/
theorem Shows.ask [AnswersEvaluations σ] {service : σ} {capacity : Nat} (positive : 0 < capacity)
    {before : List Event} (reached : Runs (spawn service capacity) before shared)
    (shows : shared.Shows task) {handle : Nat} (held : handle ∈ shared.handles)
    {call : ServiceCall} (evaluation : call.isEvaluation = true) :
    let asked := task.ask call shared.errands.length
    ∃ events next, Runs shared events next ∧ next.Shows asked.1 ∧ next.handles = shared.handles ∧
      next.errands =
        shared.errands ++ [⟨handle, .request call, .ended (asked.2.map some)⟩] := by
  intro asked
  have roomy := shows.roomy positive reached
  have message : (TaskCall.request call).message shared.errands.length =
      .request call (some shared.errands.length) := by
    rw [TaskCall.message, if_pos evaluation]
  obtain ⟨events, sent, runs, shown, handles, errands⟩ := shows.send roomy held (.request call)
  rw [message] at shown errands
  have outcome : asked = _ := Task.ask_eq task call shared.errands.length
  rcases result : task.send (.request call (some shared.errands.length)) with ⟨after, delivery⟩
  rw [result] at outcome shown errands
  cases delivery with
  | error error =>
      rw [outcome]
      exact ⟨events, sent, runs, shown, handles, errands⟩
  | ok _ =>
      obtain ⟨final, ⟨later, further, sameHandles, sameErrands⟩, waited⟩ := shown.giveWay
      have whole := runs.append further
      have waiting : final.errands = shared.errands ++ [⟨handle, .request call, .waiting⟩] := by
        rw [sameErrands, errands, phaseAfter, TaskCall.sentPhase, TaskCall.isEvaluation,
          if_pos evaluation]
      obtain ⟨event, next, step, taken, kept, heardLast⟩ :=
        waited.receive positive (reached.append whole) (Task.queue_serveAll _ _) waiting
      rw [outcome]
      exact ⟨_, next, whole.snoc step, taken, kept.trans (sameHandles.trans handles), heardLast⟩

/-- All handles are dropped, no call being under way. -/
theorem runs_dropAll (idle : ∀ errand ∈ shared.errands, errand.Ended) :
    ∃ events, Runs shared events { shared with handles := [] } := by
  induction size : shared.handles.length using Nat.strongRecOn generalizing shared with
  | ind count ih =>
      cases handles : shared.handles with
      | nil =>
          refine ⟨[], ?_⟩
          rw [← handles]
          exact .nil
      | cons handle rest =>
          have held : handle ∈ shared.handles := by
            rw [handles]
            exact List.mem_cons_self
          have fewer : (shared.handles.filter (· ≠ handle)).length < count := by
            rw [← size]
            exact List.length_filter_lt_length_iff_exists.mpr ⟨handle, held, by simp⟩
          let fewerHandles :=
            { shared with handles := shared.handles.filter (· ≠ handle) }
          obtain ⟨events, runs⟩ := @ih _ fewer fewerHandles idle rfl
          exact ⟨_, .cons (.drop held fun errand member _ => idle errand member) runs⟩

/-- The last caller goes. -/
theorem Shows.finish (shows : shared.Shows task)
    (idle : ∀ errand ∈ shared.errands, errand.Ended) :
    ∃ events next, Runs shared events next ∧ next.Shows task.finish ∧
      next.errands = shared.errands := by
  obtain ⟨dropping, dropped⟩ := runs_dropAll idle
  have alone : SharedTask.Shows { shared with handles := [] } task :=
    ⟨shows.task_eq, shows.leaving_eq, shows.dropped⟩
  obtain ⟨next, ⟨events, runs, handles, errands⟩, ⟨turn, same⟩, leaving, _⟩ := alone.drain
  have whole := dropped.append runs
  have empty : task.drain.queue = [] := Task.queue_serveAll _ _
  cases closed : task.drain.closed with
  | true =>
      have finished : task.finish = task.drain := by
        rw [Task.finish, Task.stop, ← empty, ← closed]
      rw [finished]
      exact ⟨_, next, whole, ⟨⟨turn, same⟩, leaving, fun _ => empty⟩, errands⟩
  | false =>
      have running : next.leaving = false := leaving.trans closed
      have nothing : next.task.queue = [] := by rw [same, ← empty]
      have opened : next.task.closed = false := by rw [same, ← closed]
      refine ⟨_, _, (whole.snoc (.desert running nothing handles)).snoc (.close rfl opened),
        ⟨⟨turn, ?_⟩, rfl, fun _ => rfl⟩, errands⟩
      rw [same]
      rfl

/-! ### A session -/

/-- A caller who is alone makes a call: it asks if there is an answer to wait for, and else
it sends. -/
theorem Shows.call [AnswersEvaluations σ] {service : σ} {capacity : Nat} (positive : 0 < capacity)
    {before : List Event} (reached : Runs (spawn service capacity) before shared)
    (shows : shared.Shows task) {handle : Nat} (held : handle ∈ shared.handles)
    (call : TaskCall) :
    let made := task.call shared.errands.length call
    ∃ events next, Runs shared events next ∧ next.Shows made.1 ∧ next.handles = shared.handles ∧
      next.errands = shared.errands ++ [⟨handle, call, .ended made.2⟩] := by
  intro made
  cases waits : call.isEvaluation with
  | true =>
      cases call with
      | request wanted =>
          have asked : made = _ := if_pos waits
          rw [asked]
          exact shows.ask positive reached held waits
      | shutdown => cases waits
  | false =>
      have sent : made = _ := task.call_of_sent shared.errands.length waits
      obtain ⟨events, next, runs, shown, handles, errands⟩ :=
        shows.send (shows.roomy positive reached) held call
      refine ⟨events, next, runs, by rw [sent]; exact shown, handles, ?_⟩
      have phase (delivery : Except TaskError Unit) :
          phaseAfter call delivery = .ended (delivery.map fun _ => none) := by
        cases delivery with
        | error error => rfl
        | ok _ =>
            rw [phaseAfter, TaskCall.sentPhase, if_neg (Bool.eq_false_iff.mp waits)]
            rfl
      rw [errands, phase, sent]
      rfl

/-- Calls of a caller who is alone are a run of the shared task. -/
theorem Shows.session [AnswersEvaluations σ] {service : σ} {capacity : Nat}
    (positive : 0 < capacity) {before : List Event}
    (reached : Runs (spawn service capacity) before shared) (shows : shared.Shows task)
    {handle : Nat} (held : handle ∈ shared.handles) (calls : List TaskCall) :
    let made := task.session shared.errands.length calls
    ∃ events next, Runs shared events next ∧ next.Shows made.1 ∧
      next.errands = shared.errands ++
        List.zipWith (fun call result => ⟨handle, call, .ended result⟩) calls made.2 := by
  induction calls generalizing shared task before with
  | nil => exact ⟨[], shared, .nil, shows, (List.append_nil _).symm⟩
  | cons call rest ih =>
      obtain ⟨events, next, runs, shown, handles, errands⟩ := shows.call positive reached held call
      have further := ih (reached.append runs) shown (by rw [handles]; exact held)
      rw [errands, List.length_append] at further
      obtain ⟨later, final, onward, shownLast, listed⟩ := further
      refine ⟨_, final, runs.append onward, shownLast, ?_⟩
      rw [listed, List.append_assoc]
      rfl

/-- The calls of a caller who is alone, and the end of the task once the caller has gone,
are a run of the shared task, which gives the caller the same results. -/
theorem runs_session [AnswersEvaluations σ] (service : σ) {capacity : Nat}
    (positive : 0 < capacity) (calls : List TaskCall) :
    let session := (Task.spawn service capacity : Task σ ω).session 0 calls
    ∃ events next, Runs (spawn service capacity) events next ∧ next.Shows session.1.finish ∧
      next.errands =
        List.zipWith (fun call result => ⟨0, call, .ended result⟩) calls session.2 := by
  intro session
  obtain ⟨events, next, runs, shown, errands⟩ :=
    (shows_spawn service capacity).session positive .nil (List.mem_singleton.mpr rfl) calls
  have idle : ∀ errand ∈ next.errands, errand.Ended := by
    rw [errands]
    intro errand member
    obtain ⟨place, inside, same⟩ := List.mem_iff_getElem.mp member
    rw [← same]
    simp only [spawn, List.nil_append, List.getElem_zipWith]
    exact ⟨_, rfl⟩
  obtain ⟨later, final, further, finished, same⟩ := shown.finish idle
  exact ⟨_, final, runs.append further, finished, same.trans errands⟩

end SharedTask

end Handover
