import Handover.Proofs.Engine.Marks

/-!
# Outcomes that arrive late

The host tells of the outcome of each handover that it was asked for at most
once, at any later time.  An outcome names the terminal and not the handover.
So it settles whatever handover of the terminal is outstanding, and that is the
latest one.  If none is outstanding, an outcome changes nothing.
-/

namespace Handover

/-- A handover that the host was asked for. -/
structure Ticket where
  ue : UeId
  target : CellId
  /-- The terminal has connected anew or was removed since. -/
  lapsed : Bool
  /-- The host has told of the outcome. -/
  told : Bool
deriving DecidableEq, Repr

/-- The request drops an outstanding handover of its terminal. -/
def Engine.Request.drops : Request → Bool
  | connect _ _ _ => true
  | remove _ => true
  | _ => false

/-- The request tells of an outcome. -/
def Engine.Request.tells : Request → Bool
  | conclude _ _ _ => true
  | _ => false

namespace Ticket

/-- The ticket of a call that starts a handover. -/
def ofCall? : HostCall → Option Ticket
  | .subscribe _ _ => none
  | .trigger ue target => some ⟨ue, target, false, false⟩

/-- The ticket after a request. -/
def after (request : Engine.Request) (ticket : Ticket) : Ticket :=
  if request.drops = true ∧ request.ue = ticket.ue then { ticket with lapsed := true } else ticket

/-- The last ticket of a terminal. -/
def latest? (ue : UeId) (tickets : List Ticket) : Option Ticket :=
  (tickets.filter fun ticket => ticket.ue == ue).getLast?

theorem latest?_append (ue : UeId) (older newer : List Ticket) :
    latest? ue (older ++ newer) = (latest? ue newer).or (latest? ue older) := by
  rw [latest?, List.filter_append, List.getLast?_append]
  rfl

theorem latest?_singleton (ticket : Ticket) : latest? ticket.ue [ticket] = some ticket := by
  simp [latest?]

theorem latest?_of_forall_ne {ue : UeId} {tickets : List Ticket}
    (others : ∀ ticket ∈ tickets, ticket.ue ≠ ue) : latest? ue tickets = none := by
  have empty : (tickets.filter fun ticket => ticket.ue == ue) = [] := by
    simpa [List.filter_eq_nil_iff] using others
  rw [latest?, empty]
  rfl

theorem mem_of_latest? {ue : UeId} {tickets : List Ticket} {ticket : Ticket}
    (latest : latest? ue tickets = some ticket) : ticket ∈ tickets :=
  (List.mem_filter.mp (List.mem_of_getLast? latest)).1

theorem latest?_cons (ticket : Ticket) (newer : List Ticket) :
    latest? ticket.ue (ticket :: newer) = (latest? ticket.ue newer).or (some ticket) := by
  rw [← latest?_singleton ticket, ← latest?_append]
  rfl

/-- A ticket hides the older ones of its terminal. -/
theorem latest?_append_cons (older : List Ticket) (ticket : Ticket) (newer : List Ticket) :
    latest? ticket.ue (older ++ ticket :: newer) = latest? ticket.ue (ticket :: newer) := by
  rw [latest?_append, latest?_cons]
  cases latest? ticket.ue newer <;> rfl

/-- A ticket counts for its own terminal only. -/
theorem latest?_cons_of_ne {ue : UeId} {ticket : Ticket} (distinct : ticket.ue ≠ ue)
    (newer : List Ticket) : latest? ue (ticket :: newer) = latest? ue newer := by
  rw [latest?, List.filter_cons_of_neg (by simpa using distinct)]
  rfl

/-- Calls that start no handover of a terminal make no ticket for it. -/
theorem latest?_ofCall? {ue : UeId} {calls : List HostCall}
    (silent : calls.filterMap (HostCall.targetFor? ue) = []) :
    latest? ue (calls.filterMap ofCall?) = none := by
  apply latest?_of_forall_ne
  intro ticket member same
  rcases List.mem_filterMap.mp member with ⟨call, called, made⟩
  have untargeted := List.filterMap_eq_nil_iff.mp silent call called
  cases call with
  | subscribe _ _ => cases made
  | trigger other target =>
      cases made
      rw [HostCall.targetFor?, if_pos same] at untargeted
      cases untargeted

/-- A request leaves the tickets of a terminal alone unless it drops a handover of
that terminal. -/
theorem latest?_map_after {request : Engine.Request} {ue : UeId}
    (keeps : ¬(request.drops = true ∧ request.ue = ue)) (tickets : List Ticket) :
    latest? ue (tickets.map (after request)) = latest? ue tickets := by
  have kept : ∀ ticket : Ticket, (after request ticket).ue = ticket.ue := by
    intro ticket
    unfold after
    split <;> rfl
  unfold latest?
  congr 1
  induction tickets with
  | nil => rfl
  | cons ticket rest ih =>
      rw [List.map_cons, List.filter_cons, List.filter_cons, kept, ih]
      split
      · next same =>
        rw [after, if_neg (eq_of_beq same ▸ keeps)]
      · rfl

end Ticket

namespace Engine

variable {α : Type} [Scalar α] {engine : Engine α}

/-- After a request that drops or concludes the handover of its terminal, none is
pending. -/
theorem Marked.pendingTarget_of_ends (marked : engine.Marked) {request : Request}
    (ends : request.drops = true ∨ request.tells = true) :
    ((engine.handle request).engine.store.stateOf request.ue).pendingTarget = none := by
  rw [marked.next request]
  cases request with
  | connect ue cell time => exact Dispatch.next_ofEnd (marked ue) rfl
  | conclude ue outcome time => exact Dispatch.next_ofEnd (marked ue) rfl
  | remove ue => exact Dispatch.next_ofEnd (marked ue) rfl
  | report _ _ _ | evaluate _ _ _ | offer _ | acknowledge _ _ =>
      rcases ends with drops | tells
      · cases drops
      · cases tells

end Engine

/-- An engine and the handovers that its host was asked for, the latest at the
end. -/
structure Exchange (α : Type) where
  engine : Engine α
  tickets : List Ticket

namespace Exchange

variable {α : Type} [Scalar α]

/-- The exchange after a request of the host. -/
def ask (exchange : Exchange α) (request : Engine.Request) : Exchange α where
  engine := (exchange.engine.handle request).engine
  tickets := exchange.tickets.map (Ticket.after request) ++
    (exchange.engine.handle request).calls.filterMap Ticket.ofCall?

/-- The host asks for something, or tells of an outcome that it has not told of. -/
inductive Step (exchange : Exchange α) : Exchange α → Prop where
  | ask (request : Engine.Request) (silent : request.tells = false) :
      Step exchange (exchange.ask request)
  | tell {older newer : List Ticket} {ticket : Ticket} (outcome : HandoverOutcome)
      (time : Instant) (held : exchange.tickets = older ++ ticket :: newer)
      (untold : ticket.told = false) :
      Step exchange
        ⟨(exchange.engine.handle (.conclude ticket.ue outcome time)).engine,
          older ++ { ticket with told := true } :: newer⟩

/-- A pending target is that of the latest ticket of its terminal, which has
neither lapsed nor been told of. -/
structure Sound (exchange : Exchange α) : Prop where
  marked : exchange.engine.Marked
  latest : ∀ ue target, (exchange.engine.store.stateOf ue).pendingTarget = some target →
    Ticket.latest? ue exchange.tickets = some ⟨ue, target, false, false⟩

/-! ## What a step keeps -/

variable {exchange : Exchange α}

theorem Sound.ask (sound : exchange.Sound) (request : Engine.Request) :
    (exchange.ask request).Sound where
  marked := sound.marked.handle request
  latest := by
    intro ue target pending
    have keeps : ¬(request.drops = true ∧ request.ue = ue) := by
      rintro ⟨drops, rfl⟩
      cases (sound.marked.pendingTarget_of_ends (.inl drops)).symm.trans pending
    rw [Exchange.ask, Ticket.latest?_append, Ticket.latest?_map_after keeps]
    rcases sound.marked.pending_cases pending with started | ⟨silent, before⟩
    · have opened : [HostCall.trigger ue target].filterMap Ticket.ofCall? =
          [⟨ue, target, false, false⟩] := rfl
      rw [started, opened, Ticket.latest?_singleton ⟨ue, target, false, false⟩]
      rfl
    · rw [Ticket.latest?_ofCall? silent, sound.latest ue target before]
      rfl

theorem Sound.tell (sound : exchange.Sound) {older newer : List Ticket} {ticket : Ticket}
    (held : exchange.tickets = older ++ ticket :: newer) (outcome : HandoverOutcome)
    (time : Instant) :
    Sound
      ⟨(exchange.engine.handle (.conclude ticket.ue outcome time)).engine,
        older ++ { ticket with told := true } :: newer⟩ where
  marked := sound.marked.handle _
  latest := by
    intro ue target pending
    by_cases about : ticket.ue = ue
    · subst about
      have ended : ((exchange.engine.handle (.conclude ticket.ue outcome time)).engine.store.stateOf
          ticket.ue).pendingTarget = none := sound.marked.pendingTarget_of_ends (.inr rfl)
      cases ended.symm.trans pending
    · have elsewhere : (Engine.Request.conclude ticket.ue outcome time).ue ≠ ue := about
      rw [Engine.stateOf_handle_of_ne _ elsewhere] at pending
      have latest := sound.latest ue target pending
      have marked : ({ ticket with told := true } : Ticket).ue ≠ ue := about
      rw [held, Ticket.latest?_append, Ticket.latest?_cons_of_ne about] at latest
      rw [Ticket.latest?_append, Ticket.latest?_cons_of_ne marked]
      exact latest

theorem Sound.step (sound : exchange.Sound) {next : Exchange α} (step : exchange.Step next) :
    next.Sound := by
  cases step with
  | ask request silent => exact sound.ask request
  | tell outcome time held untold => exact sound.tell held outcome time

/-! ## The latest ticket -/

omit [Scalar α] in
/-- An outstanding handover is that of the latest ticket. -/
theorem Sound.exists_latest (sound : exchange.Sound) {ue : UeId}
    (outstanding : (exchange.engine.store.stateOf ue).outstanding = true) :
    ∃ target, (exchange.engine.store.stateOf ue).pendingTarget = some target ∧
      Ticket.latest? ue exchange.tickets = some ⟨ue, target, false, false⟩ := by
  rw [sound.marked ue] at outstanding
  rcases Option.isSome_iff_exists.mp outstanding with ⟨target, pending⟩
  exact ⟨target, pending, sound.latest ue target pending⟩

omit [Scalar α] in
/-- Nothing is outstanding if the latest ticket has lapsed. -/
theorem Sound.settled_of_lapsed (sound : exchange.Sound) {ticket : Ticket}
    (latest : Ticket.latest? ticket.ue exchange.tickets = some ticket)
    (lapsed : ticket.lapsed = true) :
    (exchange.engine.store.stateOf ticket.ue).outstanding = false := by
  rw [Bool.eq_false_iff]
  intro outstanding
  rcases sound.exists_latest outstanding with ⟨target, _, current⟩
  have same := congrArg Ticket.lapsed (Option.some.inj (latest.symm.trans current))
  cases same.symm.trans lapsed

end Exchange

namespace Engine

variable {α : Type} [Scalar α] {engine : Engine α}

/-- The exchanges that begin with an engine and no ticket. -/
inductive Reaches (engine : Engine α) : Exchange α → Prop where
  | start : Reaches engine ⟨engine, []⟩
  | step {exchange next : Exchange α} (reached : Reaches engine exchange)
      (step : exchange.Step next) : Reaches engine next

theorem Reaches.sound (fresh : engine.Fresh) {exchange : Exchange α}
    (reached : engine.Reaches exchange) : exchange.Sound := by
  induction reached with
  | start =>
      refine ⟨fresh.marked, ?_⟩
      intro ue target pending
      rw [fresh.stateOf ue] at pending
      cases pending
  | step _ step ih => exact ih.step step

/-- Requests in order that tell of no outcome. -/
theorem Reaches.asks {exchange : Exchange α} (reached : engine.Reaches exchange)
    {requests : List Request} (silent : ∀ request ∈ requests, request.tells = false) :
    engine.Reaches (requests.foldl Exchange.ask exchange) := by
  induction requests generalizing exchange with
  | nil => exact reached
  | cons request rest ih =>
      rw [List.forall_mem_cons] at silent
      exact ih (reached.step (.ask request silent.1)) silent.2

theorem Reaches.of_tickets {requests : List Request} {tickets : List Ticket}
    (silent : ∀ request ∈ requests, request.tells = false)
    (held : (requests.foldl Exchange.ask ⟨engine, []⟩).tickets = tickets) :
    engine.Reaches ⟨(requests.foldl Exchange.ask ⟨engine, []⟩).engine, tickets⟩ := by
  rw [← held]
  exact Reaches.start.asks silent

/-! ## What a delivery does -/

omit [Scalar α] in
/-- An outcome without an outstanding handover changes nothing. -/
theorem Marked.conclude_of_settled (marked : engine.Marked) {ue : UeId}
    (settled : (engine.store.stateOf ue).outstanding = false) (outcome : HandoverOutcome)
    (time : Instant) : (engine.conclude ue outcome time).engine = engine := by
  unfold conclude
  cases known : engine.store.state? ue with
  | none => rfl
  | some state =>
      have kept := marked ue
      rw [Store.stateOf_of_state? known] at settled kept
      simp only [Dispatch.acknowledge, settled, Bool.false_eq_true, if_false,
        Dispatch.settle_of_marked kept settled, Store.put_of_state? known]

/-- After any exchange with a started engine, the outcome of a ticket changes
nothing if no handover of its terminal is outstanding; this is so if the ticket
has lapsed and is the latest one.  Otherwise the outcome settles the handover of
the latest ticket, which has neither lapsed nor been told of. -/
theorem outcome_settles_latest {config : EngineConfig α}
    (started : (start config).result = .ok engine) {current : Engine α}
    {older newer : List Ticket} {ticket : Ticket}
    (reached : engine.Reaches ⟨current, older ++ ticket :: newer⟩) (outcome : HandoverOutcome)
    (time : Instant) :
    let before := current.store.stateOf ticket.ue
    let after := (current.handle (.conclude ticket.ue outcome time)).engine
    (before.outstanding = false → after = current) ∧
    (ticket.lapsed = true → (∀ other ∈ newer, other.ue ≠ ticket.ue) → after = current) ∧
    (before.outstanding = true → ∃ latest,
      Ticket.latest? ticket.ue (ticket :: newer) = some latest ∧
      latest.lapsed = false ∧ latest.told = false ∧ (ticket.lapsed = true → latest ∈ newer) ∧
      after.stats = current.stats + (Progress.concluded outcome).counted ∧
      after.store.stateOf ticket.ue =
        match outcome with
        | .completed => (Dispatch.settle before).setServing latest.target time
        | .failed => Dispatch.settle before) := by
  intro before after
  have sound := reached.sound (fresh_of_start started)
  have unchanged : before.outstanding = false → after = current :=
    fun settled => sound.marked.conclude_of_settled settled outcome time
  refine ⟨unchanged, ?_, ?_⟩
  · intro lapsed last
    have latest : Ticket.latest? ticket.ue (older ++ ticket :: newer) = some ticket := by
      rw [Ticket.latest?_append_cons, Ticket.latest?_cons, Ticket.latest?_of_forall_ne last]
      rfl
    exact unchanged (sound.settled_of_lapsed latest lapsed)
  · intro outstanding
    rcases sound.exists_latest outstanding with ⟨target, pending, latest⟩
    rw [Ticket.latest?_append_cons] at latest
    refine ⟨_, latest, rfl, rfl, ?_, ?_, ?_⟩
    · intro lapsed
      rcases List.mem_cons.mp (Ticket.mem_of_latest? latest) with same | later
      · cases (congrArg Ticket.lapsed same).trans lapsed
      · exact later
    · have counted := current.handle_stats (.conclude ticket.ue outcome time)
      rw [progress, Progress.ofEnd, if_pos outstanding] at counted
      exact counted
    · have states := current.conclude_stateOf ticket.ue outcome time
      cases outcome with
      | completed =>
          rw [UeState.landing?, if_pos outstanding, pending] at states
          exact states
      | failed => exact states

/-- A handover to cell 5 whose outcome is not told yet when the terminal connects
to that cell. -/
def reconnection : List Request :=
  [.report ⟨1⟩ ⟨2⟩ ⟨⟨100000⟩, 40, 10, [⟨⟨5⟩, some 45, some 30⟩, ⟨⟨6⟩, some 50, some 25⟩]⟩,
    .report ⟨1⟩ ⟨1⟩ ⟨⟨200000⟩, 40, 10, []⟩, .connect ⟨1⟩ ⟨5⟩ ⟨250000⟩]

theorem outcome_settles_latest_usual :
    ∃ engine current : Engine Float, (start .usual).result = .ok engine ∧
      engine.Reaches ⟨current, [⟨⟨1⟩, ⟨5⟩, true, false⟩]⟩ ∧
      (current.store.stateOf ⟨1⟩).servingCell = some ⟨5⟩ ∧
      (current.handle (.conclude ⟨1⟩ .completed ⟨400000⟩)).engine = current := by
  obtain ⟨engine, started, held, serving⟩ : ∃ engine : Engine Float,
      (start .usual).result = .ok engine ∧
        (reconnection.foldl Exchange.ask ⟨engine, []⟩).tickets = [⟨⟨1⟩, ⟨5⟩, true, false⟩] ∧
        ((reconnection.foldl Exchange.ask ⟨engine, []⟩).engine.store.stateOf ⟨1⟩).servingCell =
          some ⟨5⟩ :=
    ⟨_, rfl, by decide, by decide⟩
  have reached : engine.Reaches ⟨_, [] ++ ⟨⟨1⟩, ⟨5⟩, true, false⟩ :: []⟩ :=
    Reaches.of_tickets (by decide) held
  have delivered := outcome_settles_latest started reached .completed ⟨400000⟩
  exact ⟨engine, _, started, reached, serving, delivered.2.1 rfl nofun⟩

/-- After the reconnection a report starts a handover to cell 6.  The outcome of
the first one settles it, and cell 6 counts as the serving cell. -/
theorem late_outcome_settles_later_handover :
    ∃ engine current : Engine Float, (start .usual).result = .ok engine ∧
      engine.Reaches ⟨current, [⟨⟨1⟩, ⟨5⟩, true, false⟩, ⟨⟨1⟩, ⟨6⟩, false, false⟩]⟩ ∧
      let before := current.store.stateOf ⟨1⟩
      let after := (current.handle (.conclude ⟨1⟩ .completed ⟨400000⟩)).engine
      before.pendingTarget = some ⟨6⟩ ∧ before.servingCell = some ⟨5⟩ ∧
        current.stats.completed = 0 ∧
        (after.store.stateOf ⟨1⟩).outstanding = false ∧
        (after.store.stateOf ⟨1⟩).servingCell = some ⟨6⟩ ∧ after.stats.completed = 1 := by
  let requests := reconnection ++ [.report ⟨1⟩ ⟨1⟩ ⟨⟨300000⟩, 40, 10, []⟩]
  exact ⟨_, (requests.foldl Exchange.ask ⟨_, []⟩).engine, rfl,
    Reaches.of_tickets (by decide) (by decide), by decide, by decide, by decide, by decide,
    by decide, by decide⟩

end Engine

end Handover
