import Handover.Ue.State

/-!
# The store of terminals

Terminals enter the store with the first thing that is known of them and leave
it only when they are removed.
-/

namespace Handover

/-- States of all known terminals. -/
structure Store where
  /-- Samples kept per history. -/
  historyLength : Nat
  /-- The states, by terminal. -/
  ues : Table UeId UeState

/-- Samples kept per history where nothing else is asked for. -/
def defaultHistoryLength : Nat :=
  6

namespace Store

/-- The store without terminals. -/
def empty (historyLength : Nat) : Store :=
  ⟨historyLength, .empty⟩

/-- State of a known terminal. -/
def state? (store : Store) (ue : UeId) : Option UeState :=
  store.ues.get? ue

/-- State of a terminal, a fresh one if it is not known. -/
def stateOf (store : Store) (ue : UeId) : UeState :=
  (store.state? ue).getD (.fresh ue store.historyLength)

/-- Stores the state of a terminal. -/
def put (store : Store) (ue : UeId) (state : UeState) : Store :=
  { store with ues := store.ues.insert ue state }

/-- Changes the state of a terminal, which enters the store if it is not
known. -/
def change (store : Store) (ue : UeId) (f : UeState → UeState) : Store :=
  store.put ue (f (store.stateOf ue))

/-- The store with a terminal in it. -/
def enter (store : Store) (ue : UeId) : Store :=
  store.change ue id

/-- Stores a result for a neighbour of a terminal. -/
def update (store : Store) (ue : UeId) (cell : CellId) (rsrp rsrq : Level) (time : Instant) :
    Store :=
  store.change ue fun state => state.updateNeighbour cell rsrp rsrq time

/-- The best record of a terminal that satisfies a test. -/
def best? (store : Store) (ue : UeId) (test : NeighbourRecord → Bool) :
    Option NeighbourRecord :=
  (store.state? ue).bind fun state => state.best? test

/-- All records of a terminal, by ascending cell number. -/
def snapshot (store : Store) (ue : UeId) : List NeighbourRecord :=
  match store.state? ue with
  | none => []
  | some state => state.snapshot

/-- Forgets the history of a neighbour of a known terminal. -/
def resetNeighbourHistory (store : Store) (ue : UeId) (cell : CellId) : Store :=
  { store with ues := store.ues.modify ue fun state => state.resetNeighbourHistory cell }

/-- Removes a terminal with all that is known of it. -/
def remove (store : Store) (ue : UeId) : Store :=
  { store with ues := store.ues.erase ue }

/-- Number of known terminals. -/
def size (store : Store) : Nat :=
  store.ues.size

end Store

end Handover
