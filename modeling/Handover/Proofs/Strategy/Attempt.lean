import Handover.Proofs.Strategy.Events

/-!
# Attempts to register

A strategy registers its events one after the other and gives up at the first one that is
refused.  What was registered before that stays registered and noted, so an attempt that
fails leaves everything as it was unless it fails at the second of two events.
-/

namespace Handover

variable {α : Type}

namespace Configurator

/-- The configurator with more events, under the next identities. -/
def extend (configurator : Configurator) (events : List MeasurementEvent) : Configurator :=
  events.foldl add configurator

/-- The next identities, as many as asked for. -/
def nextIds (configurator : Configurator) (count : Nat) : List MeasId :=
  (List.range' (configurator.size + 1) count).map fun number => ⟨UInt8.ofNat number⟩

/-- Each of the events is accepted after those before it. -/
def AcceptsAll (configurator : Configurator) : List MeasurementEvent → Prop
  | [] => True
  | event :: rest => configurator.Accepts event ∧ (configurator.add event).AcceptsAll rest

/-- The first of two events can be registered and the second cannot: the first one takes
the last identity, or the second one is out of range. -/
def Splits (configurator : Configurator) (first second : MeasurementEvent) : Prop :=
  first.InRange ∧
    (configurator.size + 1 = measurementLimit ∨
      configurator.size + 1 < measurementLimit ∧ ¬second.InRange)

variable {configurator : Configurator} {events : List MeasurementEvent}
  {first second : MeasurementEvent}

theorem nextId_add (event : MeasurementEvent) :
    (configurator.add event).nextId = ⟨UInt8.ofNat (configurator.size + 2)⟩ := by
  rw [nextId, size_add]

/-- Events in range are all accepted if there is room for them. -/
theorem acceptsAll_of_room (inRange : ∀ event ∈ events, event.InRange)
    (room : configurator.size + events.length ≤ measurementLimit) :
    configurator.AcceptsAll events := by
  induction events generalizing configurator with
  | nil => trivial
  | cons event rest ih =>
      rw [List.forall_mem_cons] at inRange
      rw [List.length_cons] at room
      refine ⟨⟨inRange.1, by omega⟩, ih inRange.2 ?_⟩
      rw [size_add]
      omega

theorem splits_iff :
    configurator.Splits first second ↔
      configurator.Accepts first ∧ ¬(configurator.add first).Accepts second := by
  rw [Splits, Accepts, Accepts, size_add, not_and_or, Nat.not_lt]
  constructor
  · rintro ⟨inRange, full | ⟨room, outside⟩⟩
    · exact ⟨⟨inRange, by omega⟩, .inr (by omega)⟩
    · exact ⟨⟨inRange, by omega⟩, .inl outside⟩
  · rintro ⟨⟨inRange, room⟩, beyond⟩
    refine ⟨inRange, ?_⟩
    by_cases last : configurator.size + 1 = measurementLimit
    · exact .inl last
    · exact .inr ⟨by omega, beyond.resolve_right (by omega)⟩

end Configurator

namespace HandoverStrategy

open Strategy

/-- The events that a strategy asks for, in order. -/
def asked (strategy : HandoverStrategy α) (interval : ReportInterval) : List MeasurementEvent :=
  strategy.wanted.map (·.every interval)

/-- An attempt registers all events and notes their identities, or it returns an error and
changes neither what is registered nor what is noted. -/
def AllOrNothing (strategy : HandoverStrategy α) (configurator : Configurator)
    (interval : ReportInterval) : Prop :=
  let attempt := strategy.register configurator interval
  let asked := strategy.asked interval
  attempt.result = .ok () ∧ attempt.configurator = configurator.extend asked ∧
      attempt.strategy.eventIds = (configurator.nextIds asked.length).map some ∨
    ∃ error, attempt.result = .error error ∧ attempt.configurator = configurator ∧
      attempt.strategy.eventIds = strategy.eventIds

variable {strategy : HandoverStrategy α} {configurator : Configurator}
  {interval : ReportInterval} {first second : MeasurementEvent}

theorem register_of_acceptsAll
    (accepted : configurator.AcceptsAll (strategy.asked interval)) :
    let attempt := strategy.register configurator interval
    attempt.result = .ok () ∧
      attempt.configurator = configurator.extend (strategy.asked interval) ∧
      attempt.strategy.eventIds =
        (configurator.nextIds (strategy.asked interval).length).map some := by
  intro attempt
  cases strategy with
  | noOp => exact ⟨rfl, rfl, rfl⟩
  | bestNeighbour part =>
      have whole : attempt = liftRegistration _ _ :=
        congrArg (liftRegistration _) (registerOne_of_accepts part _ accepted.1)
      rw [whole]
      exact ⟨rfl, rfl, rfl⟩
  | offset part | typeOne part | typeTwo part =>
      have whole : attempt = liftRegistration _ _ :=
        congrArg (liftRegistration _) (registerTwo_of_accepts part _ accepted.1 accepted.2.1)
      rw [whole, Configurator.nextId_add]
      exact ⟨rfl, rfl, rfl⟩

/-- Nothing changes if the first event is refused. -/
theorem register_of_refuses {rest : List MeasurementEvent}
    (wanted : strategy.asked interval = first :: rest) {error : ConfigError α}
    (refused : configurator.Refuses first error) :
    strategy.register configurator interval = ⟨strategy, configurator, .error error⟩ := by
  cases strategy with
  | noOp => cases wanted
  | bestNeighbour part =>
      cases wanted
      exact congrArg (liftRegistration _) (registerOne_of_refuses part _ refused)
  | offset part | typeOne part | typeTwo part =>
      cases wanted
      exact congrArg (liftRegistration _) (registerTwo_of_refuses part _ refused)

/-- Only the first event is registered and noted if the second one is refused. -/
theorem register_of_half (wanted : strategy.asked interval = [first, second])
    (accepted : configurator.Accepts first) {error : ConfigError α}
    (refused : (configurator.add first).Refuses second error) :
    let attempt := strategy.register configurator interval
    attempt.result = .error error ∧ attempt.configurator = configurator.add first ∧
      attempt.strategy.eventIds = some configurator.nextId :: strategy.eventIds.tail := by
  intro attempt
  cases strategy with
  | noOp | bestNeighbour part => cases wanted
  | offset part | typeOne part | typeTwo part =>
      cases wanted
      have half : attempt = liftRegistration _ _ :=
        congrArg (liftRegistration _) (registerTwo_of_half part _ accepted refused)
      rw [half]
      exact ⟨rfl, rfl, rfl⟩

/-- Either all events are accepted, or the first one is refused, or the first of two is
accepted and the second one refused. -/
theorem asked_cases (strategy : HandoverStrategy α) (configurator : Configurator)
    (interval : ReportInterval) :
    configurator.AcceptsAll (strategy.asked interval) ∨
      (∃ (first : MeasurementEvent) (rest : List MeasurementEvent) (error : ConfigError α),
        strategy.asked interval = first :: rest ∧ configurator.Refuses first error) ∨
      ∃ (first second : MeasurementEvent) (error : ConfigError α),
        strategy.asked interval = [first, second] ∧ configurator.Accepts first ∧
          (configurator.add first).Refuses second error := by
  cases strategy with
  | noOp => exact .inl trivial
  | bestNeighbour part =>
      rcases configurator.accepts_or_refuses (α := α) _ with accepted | ⟨error, refused⟩
      · exact .inl ⟨accepted, trivial⟩
      · exact .inr (.inl ⟨_, _, error, rfl, refused⟩)
  | offset part | typeOne part | typeTwo part =>
      rcases configurator.accepts_or_refuses (α := α) _ with accepted | ⟨error, refused⟩
      · rcases (configurator.add _).accepts_or_refuses (α := α) _ with both | ⟨error, refused⟩
        · exact .inl ⟨accepted, both, trivial⟩
        · exact .inr (.inr ⟨_, _, error, rfl, accepted, refused⟩)
      · exact .inr (.inl ⟨_, _, error, rfl, refused⟩)

/-- An attempt succeeds if all events are in range and there is room for them.  It is all
or nothing unless the first of two events can be registered and the second cannot; then
the first one stays registered and noted, and the error tells why the second one was
refused. -/
theorem registers_all_or_first (strategy : HandoverStrategy α) (configurator : Configurator)
    (interval : ReportInterval) :
    let attempt := strategy.register configurator interval
    let asked := strategy.asked interval
    ((∀ event ∈ asked, event.InRange) → configurator.size + asked.length ≤ measurementLimit →
        attempt.result = .ok ()) ∧
      (strategy.AllOrNothing configurator interval ↔
        ¬∃ first second, asked = [first, second] ∧ configurator.Splits first second) ∧
      ∀ first second, asked = [first, second] → configurator.Splits first second →
        ∃ error, (configurator.add first).Refuses second error ∧
          attempt.result = .error error ∧ attempt.configurator = configurator.add first ∧
          attempt.strategy.eventIds = some configurator.nextId :: strategy.eventIds.tail := by
  intro attempt asked
  have half (first second : MeasurementEvent) (wanted : asked = [first, second])
      (splits : configurator.Splits first second) :
      ∃ error, (configurator.add first).Refuses second error ∧
        attempt.result = .error error ∧ attempt.configurator = configurator.add first ∧
        attempt.strategy.eventIds = some configurator.nextId :: strategy.eventIds.tail := by
    obtain ⟨accepted, refused⟩ := Configurator.splits_iff.mp splits
    obtain ⟨error, refused⟩ :=
      ((configurator.add first).accepts_or_refuses second).resolve_left refused
    exact ⟨error, refused, register_of_half wanted accepted refused⟩
  refine ⟨fun inRange room => ?_, ⟨?_, fun whole => ?_⟩, half⟩
  · exact (register_of_acceptsAll (Configurator.acceptsAll_of_room inRange room)).1
  · rintro allOrNothing ⟨first, second, wanted, splits⟩
    obtain ⟨error, _, failed, added, _⟩ := half first second wanted splits
    rcases allOrNothing with ⟨done, _⟩ | ⟨_, _, same, _⟩
    · exact nomatch failed.symm.trans done
    · -- The event left over is one more than before.
      have sizes := congrArg Configurator.size (added.symm.trans same)
      rw [Configurator.size_add] at sizes
      omega
  · obtain accepted | ⟨first, _, error, wanted, refused⟩ |
        ⟨first, second, error, wanted, accepted, refused⟩ :=
      strategy.asked_cases configurator interval
    · exact .inl (register_of_acceptsAll accepted)
    · have unchanged := register_of_refuses wanted refused
      exact .inr ⟨error, by rw [unchanged], by rw [unchanged], by rw [unchanged]⟩
    · have splits := Configurator.splits_iff.mpr ⟨accepted, refused.not_accepts⟩
      exact absurd ⟨first, second, wanted, splits⟩ whole

/-- With one identity left, the offset strategy takes it for its first event and fails at
the second. -/
theorem first_event_left_over :
    let taken := Configurator.ofEvents (List.replicate 31 (.neighbourAbove 0))
    let strategy : HandoverStrategy Float := .offset (.ofParameters 30 1)
    ¬strategy.AllOrNothing taken .shortest ∧
      (strategy.register taken .shortest).result = .error .tooManyMeasurements ∧
      (strategy.register taken .shortest).configurator =
        taken.add (.servingBelow 30) ∧
      strategy.eventIds = [none, none] ∧
      (strategy.register taken .shortest).strategy.eventIds = [some ⟨32⟩, none] := by
  intro taken strategy
  have attempt : strategy.register taken .shortest =
      ⟨.offset ⟨30, 1, some ⟨32⟩, none⟩, taken.add (.servingBelow 30),
        .error .tooManyMeasurements⟩ := rfl
  rw [attempt]
  refine ⟨?_, rfl, rfl, rfl, rfl⟩
  unfold AllOrNothing
  rw [attempt]
  rintro (⟨done, _⟩ | ⟨_, _, same, _⟩)
  · cases done
  · exact absurd same (by decide)

end HandoverStrategy

end Handover
