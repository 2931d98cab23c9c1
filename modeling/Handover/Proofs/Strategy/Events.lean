import Handover.Proofs.Strategy.Registration
import Mathlib.Data.List.Basic

/-!
# The events that a strategy needs

A strategy asks for its events in a fixed order and with the parameters that it
was configured with.  None of them is refused if the configuration was checked,
and the strategy recognises the identities under which they were registered.
-/

namespace Handover

open Strategy

/-- Events under the identities from one. -/
def Configurator.ofEvents (events : List MeasurementEvent) : Configurator :=
  ⟨events.mapIdx fun position event => (⟨UInt8.ofNat (position + 1)⟩, event)⟩

/-- The event is asked for under an identity. -/
def Configurator.Registers (configurator : Configurator) (id : MeasId)
    (event : MeasurementEvent) : Prop :=
  (id, event) ∈ configurator.events

theorem Configurator.registers_single {id : MeasId} {event wanted : MeasurementEvent} :
    (ofEvents [wanted]).Registers id event ↔ id = ⟨1⟩ ∧ event = wanted := by
  simp [Registers, ofEvents]

theorem Configurator.registers_pair {id : MeasId} {event first second : MeasurementEvent} :
    (ofEvents [first, second]).Registers id event ↔
      id = ⟨1⟩ ∧ event = first ∨ id = ⟨2⟩ ∧ event = second := by
  simp [Registers, ofEvents]

namespace Strategy

variable {α : Type}

/-- The strategy with its event noted under the first identity. -/
def BestNeighbour.noted (strategy : BestNeighbour) : BestNeighbour :=
  { strategy with event := some ⟨1⟩ }

/-- The strategy with its events noted under the first two identities. -/
def Offset.noted (strategy : Offset) : Offset :=
  { strategy with servingEvent := some ⟨1⟩, discoveryEvent := some ⟨2⟩ }

end Strategy

namespace HandoverStrategy

variable {α : Type}

/-- The strategy with its events noted under the first identities. -/
def noted : HandoverStrategy α → HandoverStrategy α
  | noOp => noOp
  | bestNeighbour part => bestNeighbour part.noted
  | offset part => offset part.noted
  | typeOne part => typeOne part.noted
  | typeTwo part => typeTwo part.noted

/-- The events that a strategy needs, in order, at the shortest interval. -/
def wanted : HandoverStrategy α → List MeasurementEvent
  | noOp => []
  | bestNeighbour part => [.neighbourBetter part.hysteresis part.timeToTrigger]
  | offset part => [.servingBelow part.servingThreshold, .neighbourAbove 0]
  | typeOne part | typeTwo part =>
    [.servingBelow part.servingThreshold, .neighbourAbove part.discoveryThreshold]

/-- The events that a strategy registers. -/
def events (strategy : HandoverStrategy α) (interval : ReportInterval) : Configurator :=
  .ofEvents (strategy.wanted.map (·.every interval))

theorem exists_of_registers {strategy : HandoverStrategy α} {interval : ReportInterval}
    {id : MeasId} {event : MeasurementEvent}
    (registered : (strategy.events interval).Registers id event) :
    ∃ wanted ∈ strategy.wanted, event = wanted.every interval := by
  simp only [Configurator.Registers, events, Configurator.ofEvents, List.mem_mapIdx] at registered
  obtain ⟨position, inside, same⟩ := registered
  obtain ⟨wanted, member, every⟩ := List.mem_map.mp (List.getElem_mem inside)
  exact ⟨wanted, member, (every.trans (Prod.mk.inj same).2).symm⟩

theorem register_of_valid {strategy : HandoverStrategy α} {interval : ReportInterval}
    (valid : ∀ event ∈ strategy.wanted, (event.every interval).validate (α := α) = .ok ()) :
    strategy.register .empty interval =
      ⟨strategy.noted, strategy.events interval, .ok ()⟩ := by
  have inRange (event : MeasurementEvent) (member : event ∈ strategy.wanted) :
      (event.every interval).InRange :=
    MeasurementEvent.validate_ok_iff.mp (valid event member)
  have room (event : MeasurementEvent) :
      (Configurator.empty.add event).size < measurementLimit :=
    show 1 < measurementLimit by decide
  cases strategy with
  | noOp => rfl
  | bestNeighbour part =>
      exact congrArg (liftRegistration _)
        (registerOne_of_accepts part _ ⟨inRange _ List.mem_cons_self, by decide⟩)
  | offset part | typeOne part | typeTwo part =>
      have serving := inRange _ List.mem_cons_self
      have discovery := inRange _ (List.mem_cons_of_mem _ List.mem_cons_self)
      exact congrArg (liftRegistration _) (registerTwo_of_accepts part _
        ⟨serving, by decide⟩ ⟨discovery, room _⟩)

end HandoverStrategy

/-! ## What the configuration says of the events -/

theorem FuzzyConfig.levels_of_validate {α μ : Type} [Scalar α] (config : FuzzyConfig α μ)
    (checked : config.validate = .ok ()) :
    config.servingThreshold ≤ 34 ∧ config.discoveryThreshold ≤ 34 := by
  rw [← UInt8.not_lt, ← UInt8.not_lt]
  constructor
  · intro above
    rw [validate, if_pos above] at checked
    cases checked
  · intro above
    rw [validate, if_pos above] at checked
    split at checked <;> cases checked

namespace AlgorithmConfig

variable {α : Type} [Scalar α]

/-- Quality of the serving cell below which it is poor, if the algorithm uses one. -/
def servingThreshold? : AlgorithmConfig α → Option Level
  | noOp | bestNeighbour _ _ => none
  | offset servingThreshold _ => some servingThreshold
  | typeOne config => some config.servingThreshold
  | typeTwo config => some config.servingThreshold

/-- The events that an algorithm is to ask for, in order, at the shortest interval. -/
def wanted : AlgorithmConfig α → Except (ConfigError α) (List MeasurementEvent)
  | noOp => .ok []
  | bestNeighbour hysteresis timeToTrigger => do
    let margin ← Hysteresis.ofDecibels hysteresis
    let time ← TimeToTrigger.ofMillis timeToTrigger
    .ok [.neighbourBetter margin time]
  | offset servingThreshold _ => .ok [.servingBelow servingThreshold, .neighbourAbove 0]
  | typeOne config => .ok [.servingBelow config.servingThreshold,
      .neighbourAbove config.discoveryThreshold]
  | typeTwo config => .ok [.servingBelow config.servingThreshold,
      .neighbourAbove config.discoveryThreshold]

variable {algorithm : AlgorithmConfig α} {strategy : HandoverStrategy α}

/-- The strategy needs the configured events. -/
theorem wanted_of_ofConfig (chosen : HandoverStrategy.ofConfig algorithm = .ok strategy) :
    algorithm.wanted = .ok strategy.wanted := by
  cases algorithm with
  | noOp | offset _ _ =>
      cases chosen
      rfl
  | bestNeighbour hysteresis timeToTrigger =>
      obtain ⟨part, built, rfl⟩ := exists_of_map_eq_ok chosen
      obtain ⟨margin, usable, built⟩ := exists_of_bind_eq_ok built
      obtain ⟨time, standard, built⟩ := exists_of_bind_eq_ok built
      cases built
      rw [wanted, usable, standard]
      rfl
  | typeOne config | typeTwo config =>
      obtain ⟨part, built, rfl⟩ := exists_of_map_eq_ok chosen
      obtain ⟨evaluator, _, built⟩ := exists_of_bind_eq_ok built
      cases built
      rfl

/-- The threshold of a poor serving cell is the configured one. -/
theorem servingThreshold?_of_wanted {events : List MeasurementEvent}
    (asked : algorithm.wanted = .ok events) {event : MeasurementEvent} (member : event ∈ events)
    (poor : event.kind = .a2) : algorithm.servingThreshold? = some event.threshold := by
  cases algorithm with
  | noOp =>
      cases asked
      cases member
  | bestNeighbour hysteresis timeToTrigger =>
      obtain ⟨margin, _, asked⟩ := exists_of_bind_eq_ok asked
      obtain ⟨time, _, asked⟩ := exists_of_bind_eq_ok asked
      cases asked
      cases List.mem_singleton.mp member
      cases poor
  | offset _ _ | typeOne _ | typeTwo _ =>
      cases asked
      rcases List.mem_pair.mp member with rfl | rfl
      · rfl
      · cases poor

/-- Checked parameters make valid events. -/
theorem valid_of_wanted (checked : algorithm.validate = .ok ()) {events : List MeasurementEvent}
    (asked : algorithm.wanted = .ok events) (interval : ReportInterval) :
    ∀ event ∈ events, (event.every interval).validate (α := α) = .ok () := by
  have centred (event : MeasurementEvent) (quality : event.quantity = .rsrq)
      (level : event.threshold ≤ 34) (still : event.offset = 0) :
      (event.every interval).validate (α := α) = .ok () := by
    have inRange : ¬Quantity.greatest .rsrq < event.threshold := UInt8.not_lt.mpr level
    simp [MeasurementEvent.validate, MeasurementEvent.every, quality, still, inRange]
  cases algorithm with
  | noOp =>
      cases asked
      exact List.forall_mem_nil _
  | bestNeighbour hysteresis timeToTrigger =>
      obtain ⟨margin, _, asked⟩ := exists_of_bind_eq_ok asked
      obtain ⟨time, _, asked⟩ := exists_of_bind_eq_ok asked
      cases asked
      exact List.forall_mem_singleton.mpr (centred _ rfl (show (0 : Level) ≤ 34 by decide) rfl)
  | offset servingThreshold neighbourOffset =>
      cases asked
      have level : servingThreshold ≤ 34 := by
        rw [← UInt8.not_lt]
        intro above
        rw [validate, if_pos above] at checked
        cases checked
      simp only [List.forall_mem_cons]
      exact ⟨centred _ rfl level rfl, centred _ rfl (show (0 : Level) ≤ 34 by decide) rfl,
        List.forall_mem_nil _⟩
  | typeOne config | typeTwo config =>
      cases asked
      obtain ⟨serving, discovery⟩ := config.levels_of_validate checked
      simp only [List.forall_mem_cons]
      exact ⟨centred _ rfl serving rfl, centred _ rfl discovery rfl, List.forall_mem_nil _⟩

end AlgorithmConfig

end Handover
