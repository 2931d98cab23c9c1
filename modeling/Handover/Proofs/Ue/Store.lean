import Handover.Ue.Store

/-!
# Looking into the store

Every operation on the store writes the state of one terminal.  The lemmas
here say what a later lookup finds; later modules reason about lookups and do
not open the table of states.
-/

namespace Handover

namespace Store

@[simp]
theorem state?_put_self (store : Store) (ue : UeId) (state : UeState) :
    (store.put ue state).state? ue = some state :=
  Table.get?_insert_self _ _ _

theorem state?_put_of_ne (store : Store) {ue other : UeId} (distinct : other ≠ ue)
    (state : UeState) : (store.put ue state).state? other = store.state? other :=
  Table.get?_insert_of_ne _ distinct _

@[simp]
theorem state?_remove_self (store : Store) (ue : UeId) : (store.remove ue).state? ue = none :=
  Table.get?_erase_self _ _

theorem state?_remove_of_ne (store : Store) {ue other : UeId} (distinct : other ≠ ue) :
    (store.remove ue).state? other = store.state? other :=
  Table.get?_erase_of_ne _ distinct

@[simp]
theorem historyLength_put (store : Store) (ue : UeId) (state : UeState) :
    (store.put ue state).historyLength = store.historyLength :=
  rfl

@[simp]
theorem historyLength_remove (store : Store) (ue : UeId) :
    (store.remove ue).historyLength = store.historyLength :=
  rfl

theorem stateOf_of_state? {store : Store} {ue : UeId} {state : UeState}
    (known : store.state? ue = some state) : store.stateOf ue = state := by
  simp [stateOf, known]

theorem stateOf_of_unknown {store : Store} {ue : UeId} (unknown : store.state? ue = none) :
    store.stateOf ue = .fresh ue store.historyLength := by
  simp [stateOf, unknown]

/-- Only a known terminal has an outstanding handover. -/
theorem exists_of_outstanding {store : Store} {ue : UeId}
    (outstanding : (store.stateOf ue).outstanding = true) :
    ∃ state, store.state? ue = some state ∧ store.stateOf ue = state := by
  cases known : store.state? ue with
  | none =>
      rw [stateOf_of_unknown known] at outstanding
      cases outstanding
  | some state => exact ⟨state, rfl, stateOf_of_state? known⟩

@[simp]
theorem stateOf_put_self (store : Store) (ue : UeId) (state : UeState) :
    (store.put ue state).stateOf ue = state := by
  simp [stateOf]

theorem stateOf_put_of_ne (store : Store) {ue other : UeId} (distinct : other ≠ ue)
    (state : UeState) : (store.put ue state).stateOf other = store.stateOf other := by
  simp [stateOf, state?_put_of_ne store distinct]

@[simp]
theorem stateOf_remove_self (store : Store) (ue : UeId) :
    (store.remove ue).stateOf ue = .fresh ue store.historyLength := by
  simp [stateOf]

theorem stateOf_remove_of_ne (store : Store) {ue other : UeId} (distinct : other ≠ ue) :
    (store.remove ue).stateOf other = store.stateOf other := by
  simp [stateOf, state?_remove_of_ne store distinct]

/-- To store what is known already changes nothing. -/
theorem put_of_state? {store : Store} {ue : UeId} {state : UeState}
    (known : store.state? ue = some state) : store.put ue state = store := by
  have same : store.ues.insert ue state = store.ues := by
    apply Table.ext
    intro other
    by_cases about : other = ue
    · rw [about, Table.get?_insert_self]
      exact known.symm
    · rw [Table.get?_insert_of_ne _ about]
  rw [put, same]

/-! ## Properties of all states -/

/-- The states of all terminals have a property, that of an unknown terminal being
a fresh one. -/
def Each (store : Store) (property : UeState → Prop) : Prop :=
  ∀ ue, property (store.stateOf ue)

namespace Each

variable {store : Store} {property : UeState → Prop}

theorem put (each : store.Each property) {ue : UeId} {state : UeState} (new : property state) :
    (store.put ue state).Each property := by
  intro other
  by_cases same : other = ue
  · rw [same, stateOf_put_self]
    exact new
  · rw [stateOf_put_of_ne store same]
    exact each other

theorem remove (each : store.Each property) {ue : UeId}
    (fresh : property (.fresh ue store.historyLength)) : (store.remove ue).Each property := by
  intro other
  by_cases same : other = ue
  · rw [same, stateOf_remove_self]
    exact fresh
  · rw [stateOf_remove_of_ne store same]
    exact each other

end Each

end Store

end Handover
