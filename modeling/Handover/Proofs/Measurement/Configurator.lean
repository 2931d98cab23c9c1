import Handover.Measurement.Configurator
import Handover.Proofs.Lookup
import Handover.Proofs.Success
import Mathlib.Data.List.Range

/-!
# Identities of events

Identities are handed out from one on, without gaps, as long as there are any left.  An
event out of range is refused before anything else is looked at, and a refused event
leaves no trace.  What is registered under an identity stays so whatever is asked for
later.
-/

namespace Handover

variable {α : Type}

namespace MeasurementEvent

/-! ## The ranges of an event -/

/-- The threshold, where it is used, is a level of the quantity, and the offset is
fifteen decibels at most in either direction. -/
def InRange (event : MeasurementEvent) : Prop :=
  (event.kind = .a3 ∨ event.threshold ≤ event.quantity.greatest) ∧
    -30 ≤ event.offset ∧ event.offset ≤ 30

instance (event : MeasurementEvent) : Decidable event.InRange :=
  inferInstanceAs (Decidable (_ ∧ _))

/-- What is wrong with an event that is out of range.  An offset is only found fault with
if the threshold is right. -/
inductive Violates (event : MeasurementEvent) : ConfigError α → Prop where
  | threshold (used : event.kind ≠ .a3) (above : event.quantity.greatest < event.threshold) :
      Violates event (.threshold (.event event.quantity) event.threshold)
  | offset (level : event.kind = .a3 ∨ event.threshold ≤ event.quantity.greatest)
      (beyond : event.offset < -30 ∨ 30 < event.offset) :
      Violates event (.eventOffset event.offset)

variable {event : MeasurementEvent} {error : ConfigError α}

theorem not_uses_iff :
    ¬(event.kind ≠ .a3 ∧ event.quantity.greatest < event.threshold) ↔
      event.kind = .a3 ∨ event.threshold ≤ event.quantity.greatest := by
  rw [not_and_or, not_not, UInt8.not_lt]

theorem not_beyond_iff :
    ¬(event.offset < -30 ∨ 30 < event.offset) ↔ -30 ≤ event.offset ∧ event.offset ≤ 30 := by
  rw [not_or, Int8.not_lt, Int8.not_lt]

theorem validate_ok_iff : event.validate (α := α) = .ok () ↔ event.InRange := by
  rw [InRange, ← not_uses_iff, ← not_beyond_iff, validate]
  split_ifs with above beyond
  · exact iff_of_false nofun fun inRange => inRange.1 above
  · exact iff_of_false nofun fun inRange => inRange.2 beyond
  · exact iff_of_true rfl ⟨above, beyond⟩

theorem validate_error_iff : event.validate = .error error ↔ event.Violates error := by
  constructor
  · intro refused
    rw [validate] at refused
    split_ifs at refused with above beyond
    · cases refused
      exact .threshold above.1 above.2
    · cases refused
      exact .offset (not_uses_iff.mp above) beyond
  · intro violated
    rw [validate]
    cases violated with
    | threshold used above => exact if_pos ⟨used, above⟩
    | offset level beyond => rw [if_neg (not_uses_iff.mpr level), if_pos beyond]

/-- Either an event is in range, or there is one thing to say against it. -/
theorem inRange_or_violates (event : MeasurementEvent) :
    event.InRange ∨ ∃ error : ConfigError α, event.Violates error := by
  cases checked : event.validate (α := α) with
  | error error => exact .inr ⟨error, validate_error_iff.mp checked⟩
  | ok _ => exact .inl (validate_ok_iff.mp checked)

theorem Violates.not_inRange (violated : event.Violates error) : ¬event.InRange := by
  intro inRange
  have refused := validate_error_iff.mpr violated
  rw [validate_ok_iff.mpr inRange] at refused
  cases refused

end MeasurementEvent

namespace Configurator

/-! ## One call -/

section Call

variable {configurator : Configurator} {event : MeasurementEvent} {error : ConfigError α}

/-- The configurator with one more event, under the next identity. -/
def add (configurator : Configurator) (event : MeasurementEvent) : Configurator :=
  ⟨configurator.events ++ [(configurator.nextId, event)]⟩

@[simp]
theorem size_add : (configurator.add event).size = configurator.size + 1 :=
  List.length_append

/-- An event in range is registered as long as there is room for one more. -/
def Accepts (configurator : Configurator) (event : MeasurementEvent) : Prop :=
  event.InRange ∧ configurator.size < measurementLimit

instance : Decidable (configurator.Accepts event) :=
  inferInstanceAs (Decidable (_ ∧ _))

/-- Why an event is refused: it is out of range, or else all identities are taken. -/
def Refuses (configurator : Configurator) (event : MeasurementEvent)
    (error : ConfigError α) : Prop :=
  event.Violates error ∨
    event.InRange ∧ measurementLimit ≤ configurator.size ∧ error = .tooManyMeasurements

theorem register_of_accepts (accepted : configurator.Accepts event) :
    configurator.register (α := α) event = .ok (configurator.nextId, configurator.add event) := by
  rw [register, bind_of_ok (MeasurementEvent.validate_ok_iff.mpr accepted.1),
    if_neg (Nat.not_le.mpr accepted.2)]
  rfl

theorem register_of_refuses (refused : configurator.Refuses event error) :
    configurator.register event = .error error := by
  rw [register]
  rcases refused with violated | ⟨inRange, full, rfl⟩
  · rw [MeasurementEvent.validate_error_iff.mpr violated]
    rfl
  · rw [bind_of_ok (MeasurementEvent.validate_ok_iff.mpr inRange), if_pos full]
    rfl

theorem accepts_or_refuses (configurator : Configurator) (event : MeasurementEvent) :
    configurator.Accepts event ∨ ∃ error : ConfigError α, configurator.Refuses event error := by
  rcases event.inRange_or_violates (α := α) with inRange | ⟨error, violated⟩
  · rcases Nat.lt_or_ge configurator.size measurementLimit with room | full
    · exact .inl ⟨inRange, room⟩
    · exact .inr ⟨_, .inr ⟨inRange, full, rfl⟩⟩
  · exact .inr ⟨error, .inl violated⟩

theorem Refuses.not_accepts (refused : configurator.Refuses event error) :
    ¬configurator.Accepts event := by
  intro accepted
  rcases refused with violated | ⟨_, full, _⟩
  · exact violated.not_inRange accepted.1
  · exact Nat.not_lt.mpr full accepted.2

theorem register_eq_error_iff :
    configurator.register event = .error error ↔ configurator.Refuses event error := by
  refine ⟨fun failed => ?_, register_of_refuses⟩
  rcases configurator.accepts_or_refuses (α := α) event with accepted | ⟨other, refused⟩
  · rw [register_of_accepts accepted] at failed
    cases failed
  · rw [register_of_refuses refused] at failed
    cases failed
    exact refused

end Call

/-! ## Runs of calls -/

section Runs

variable (α)

/-- The answer to a call, and the configurator afterwards. -/
def call (configurator : Configurator) (event : MeasurementEvent) :
    Except (ConfigError α) MeasId × Configurator :=
  match configurator.register event with
  | .ok (id, registered) => (.ok id, registered)
  | .error error => (.error error, configurator)

/-- The configurator after a sequence of calls. -/
def after (configurator : Configurator) : List MeasurementEvent → Configurator
  | [] => configurator
  | event :: rest => (configurator.call α event).2.after rest

/-- The calls of a sequence with their answers. -/
def answered (configurator : Configurator) :
    List MeasurementEvent → List (MeasurementEvent × Except (ConfigError α) MeasId)
  | [] => []
  | event :: rest =>
    (event, (configurator.call α event).1) :: (configurator.call α event).2.answered rest

/-- The entry that a call leaves, if it was answered with an identity. -/
def granted? : MeasurementEvent × Except (ConfigError α) MeasId → Option (MeasId × MeasurementEvent)
  | (event, .ok id) => some (id, event)
  | (_, .error _) => none

variable {α} {configurator : Configurator} {event : MeasurementEvent}

theorem call_of_accepts (accepted : configurator.Accepts event) :
    configurator.call α event = (.ok configurator.nextId, configurator.add event) := by
  rw [call, register_of_accepts accepted]

theorem call_of_refuses {error : ConfigError α} (refused : configurator.Refuses event error) :
    configurator.call α event = (.error error, configurator) := by
  rw [call, register_of_refuses refused]

/-- A call is answered with an error exactly if there is a reason to refuse the event. -/
theorem refused_iff {error : ConfigError α} :
    (configurator.call α event).1 = .error error ↔ configurator.Refuses event error := by
  rw [← register_eq_error_iff, call]
  split
  · next registration =>
    exact iff_of_false nofun fun failed => nomatch registration.symm.trans failed
  · next failed => rw [failed, Except.error.injEq, Except.error.injEq]

/-- A call adds the entry that its answer tells of. -/
theorem events_call (configurator : Configurator) (event : MeasurementEvent) :
    (configurator.call α event).2.events =
      configurator.events ++ (granted? α (event, (configurator.call α event).1)).toList := by
  rcases configurator.accepts_or_refuses (α := α) event with accepted | ⟨error, refused⟩
  · rw [call_of_accepts accepted]
    rfl
  · rw [call_of_refuses refused]
    exact (List.append_nil _).symm

/-- What is registered after a run is what was answered with an identity, in the order of
the calls. -/
theorem events_after (configurator : Configurator) (calls : List MeasurementEvent) :
    (configurator.after α calls).events =
      configurator.events ++ (configurator.answered α calls).filterMap (granted? α) := by
  induction calls generalizing configurator with
  | nil => exact (List.append_nil _).symm
  | cons event rest ih =>
      -- What the first call adds stands before what the others add.
      rw [after, answered, ih, events_call, List.append_assoc, List.filterMap_cons]
      cases granted? α (event, (configurator.call α event).1) <;> rfl

/-! ## Identities in order -/

/-- As long as there is room, the number of the next identity does not wrap around. -/
theorem nextId_toNat (room : configurator.size < measurementLimit) :
    configurator.nextId.value.toNat = configurator.size + 1 := by
  have small : configurator.size + 1 < 256 := Nat.lt_of_le_of_lt room (by decide)
  exact Nat.mod_eq_of_lt small

/-- The identities are consecutive from one on, and no more than there can be. -/
structure Numbered (configurator : Configurator) : Prop where
  ids : configurator.events.map (fun entry => entry.1.value.toNat) =
    List.range' 1 configurator.size
  room : configurator.size ≤ measurementLimit

theorem numbered_empty : empty.Numbered :=
  ⟨rfl, Nat.zero_le _⟩

namespace Numbered

theorem add (numbered : configurator.Numbered) (room : configurator.size < measurementLimit) :
    (configurator.add event).Numbered where
  ids := by
    rw [size_add, Configurator.add, List.map_append, numbered.ids, List.map_singleton,
      nextId_toNat room, List.range'_1_concat, Nat.add_comm]
  room := by
    rw [size_add]
    exact room

theorem call (numbered : configurator.Numbered) (event : MeasurementEvent) :
    (configurator.call α event).2.Numbered := by
  rcases configurator.accepts_or_refuses (α := α) event with accepted | ⟨error, refused⟩
  · rw [call_of_accepts accepted]
    exact numbered.add accepted.2
  · rw [call_of_refuses refused]
    exact numbered

theorem after (numbered : configurator.Numbered) (calls : List MeasurementEvent) :
    (configurator.after α calls).Numbered := by
  induction calls generalizing configurator with
  | nil => exact numbered
  | cons event rest ih => exact ih (numbered.call event)

/-- An identity tells of the event that is registered under it, and of no other. -/
theorem get?_eq_some_iff (numbered : configurator.Numbered) {id : MeasId} :
    configurator.get? id = some event ↔ (id, event) ∈ configurator.events := by
  -- The lookup ends at the first entry, so it matters that no identity comes twice.
  have unique : (configurator.events.map Prod.fst).Nodup := by
    apply List.Nodup.of_map fun id : MeasId => id.value.toNat
    rw [List.map_map]
    exact numbered.ids ▸ List.nodup_range'
  rw [get?, Option.map_eq_some_iff]
  constructor
  · rintro ⟨⟨other, event⟩, found, rfl⟩
    obtain ⟨member, rfl⟩ := (find?_eq_some_iff_of_nodup unique).mp found
    exact member
  · intro member
    exact ⟨(id, event), (find?_eq_some_iff_of_nodup unique).mpr ⟨member, rfl⟩, rfl⟩

/-- Something is registered under the identities up to the number of events, and nothing
under any other. -/
theorem exists_mem_iff (numbered : configurator.Numbered) {id : MeasId} :
    (∃ event, (id, event) ∈ configurator.events) ↔
      1 ≤ id.value.toNat ∧ id.value.toNat ≤ configurator.size := by
  have listed : id.value.toNat ∈ List.range' 1 configurator.size ↔
      1 ≤ id.value.toNat ∧ id.value.toNat ≤ configurator.size := by
    rw [List.mem_range'_1]
    omega
  rw [← listed, ← numbered.ids, List.mem_map]
  constructor
  · rintro ⟨event, member⟩
    exact ⟨(id, event), member, rfl⟩
  · rintro ⟨⟨⟨value⟩, event⟩, member, same⟩
    cases UInt8.toNat_inj.mp same
    exact ⟨event, member⟩

end Numbered

theorem granted?_eq_some_iff {answer : MeasurementEvent × Except (ConfigError α) MeasId}
    {id : MeasId} : granted? α answer = some (id, event) ↔ answer = (event, .ok id) := by
  obtain ⟨other, _ | found⟩ := answer
  · exact iff_of_false nofun nofun
  · simp [granted?, and_comm]

theorem map_fst_granted? (answers : List (MeasurementEvent × Except (ConfigError α) MeasId)) :
    (answers.filterMap (granted? α)).map Prod.fst =
      answers.filterMap fun answer => answer.2.toOption := by
  rw [List.map_filterMap]
  congr 1
  funext answer
  obtain ⟨event, _ | id⟩ := answer <;> rfl

/-- Whatever is asked for, the identities handed out are one, two and so on in the order
of the calls, thirty-two at most.  A call is refused for an event out of range or else when
there are thirty-two events, and then it changes nothing.  Every identity that was handed
out tells of the event that it was handed out for, after any further calls, and no other
identity tells of any event. -/
theorem identities_in_order (calls : List MeasurementEvent) :
    let answers := empty.answered α calls
    let current := empty.after α calls
    (answers.filterMap fun answer => answer.2.toOption).map (fun id => id.value.toNat) =
        List.range' 1 current.size ∧
      current.size ≤ 32 ∧
      (∀ event error, (current.call α event).1 = .error error ↔
        event.Violates error ∨
          event.InRange ∧ current.size = 32 ∧ error = .tooManyMeasurements) ∧
      (∀ event error, (current.call α event).1 = .error error →
        (current.call α event).2 = current) ∧
      (∀ id event, current.get? id = some event ↔ (event, .ok id) ∈ answers) ∧
      (∀ id event later, current.get? id = some event →
        (current.after α later).get? id = some event) ∧
      ∀ id, current.get? id = none ↔ ¬(1 ≤ id.value.toNat ∧ id.value.toNat ≤ current.size) := by
  intro answers current
  have numbered : current.Numbered := numbered_empty.after calls
  have registered : current.events = answers.filterMap (granted? α) := events_after empty calls
  refine ⟨?_, numbered.room, ?_, ?_, ?_, ?_, ?_⟩
  · rw [← map_fst_granted?, ← registered, List.map_map]
    exact numbered.ids
  · intro event error
    have full : measurementLimit ≤ current.size ↔ current.size = 32 :=
      ⟨fun above => Nat.le_antisymm numbered.room above, fun same => same ▸ Nat.le_refl 32⟩
    rw [← full]
    exact refused_iff
  · intro event error refused
    rw [call_of_refuses (refused_iff.mp refused)]
  · intro id event
    rw [numbered.get?_eq_some_iff, registered, List.mem_filterMap]
    simp only [granted?_eq_some_iff, exists_eq_right]
  · intro id event later found
    rw [numbered.get?_eq_some_iff] at found
    rw [(numbered.after later).get?_eq_some_iff, events_after]
    exact List.mem_append_left _ found
  · intro id
    rw [← numbered.exists_mem_iff, Option.eq_none_iff_forall_ne_some, not_exists]
    simp only [ne_eq, numbered.get?_eq_some_iff]

/-- A refused event takes no identity. -/
example : (empty.after Float [.servingBelow 30, .servingBelow 35, .neighbourAbove 0]).get? ⟨2⟩ =
    some (.neighbourAbove 0) := by
  decide

end Runs

end Configurator

end Handover
