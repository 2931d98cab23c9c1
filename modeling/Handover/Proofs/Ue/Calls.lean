import Handover.Proofs.Inference.Ranking
import Handover.Proofs.Ue.Best
import Handover.Proofs.Ue.Store

/-!
# The store under any calls

Every state is stored under its own terminal, and every record under its own cell, whatever
is called in whatever order.  So a terminal has one record for each cell, records are told
apart by their cells, and neither the list of all records nor the best of them depends on
the order in which a table happens to visit them.  Results for different neighbours, or for
different terminals, can be stored in either order.
-/

namespace Handover

/-! ## Calls -/

/-- A call that may change the store. -/
inductive StoreCall where
  /-- A result for a neighbour of a terminal. -/
  | update (ue : UeId) (cell : CellId) (rsrp rsrq : Level) (time : Instant)
  /-- A new serving cell of a terminal. -/
  | setServing (ue : UeId) (cell : CellId) (since : Instant)
  /-- The history of a neighbour of a known terminal is forgotten. -/
  | resetHistory (ue : UeId) (cell : CellId)
  /-- A terminal is looked up, and entered if it is not known. -/
  | enter (ue : UeId)
  /-- A terminal is removed. -/
  | remove (ue : UeId)
deriving DecidableEq, Repr

namespace Store

/-- The store after one call. -/
def call (store : Store) : StoreCall → Store
  | .update ue cell rsrp rsrq time => store.update ue cell rsrp rsrq time
  | .setServing ue cell since => store.change ue fun state => state.setServing cell since
  | .resetHistory ue cell => store.resetNeighbourHistory ue cell
  | .enter ue => store.enter ue
  | .remove ue => store.remove ue

/-- The store after some calls. -/
def after (store : Store) (calls : List StoreCall) : Store :=
  calls.foldl call store

variable {store : Store} {ue other : UeId}

/-- A history is forgotten in the state of a known terminal, or else nothing is. -/
theorem resetNeighbourHistory_cases (store : Store) (ue : UeId) (cell : CellId) :
    (∃ state, store.state? ue = some state ∧
      store.resetNeighbourHistory ue cell = store.put ue (state.resetNeighbourHistory cell)) ∨
    store.state? ue = none ∧ store.resetNeighbourHistory ue cell = store := by
  unfold resetNeighbourHistory Table.modify
  cases known : store.ues.get? ue with
  | none => exact .inr ⟨known, rfl⟩
  | some state => exact .inl ⟨state, known, rfl⟩

/-! ## States and records under their own keys -/

/-- Every state is stored under its own terminal, and its records under their own cells. -/
def Filed (store : Store) : Prop :=
  ∀ ue state, store.state? ue = some state → state.ue = ue ∧ state.Filed

theorem filed_empty (historyLength : Nat) : (empty historyLength).Filed :=
  nofun

namespace Filed

theorem stateOf (filed : store.Filed) (ue : UeId) :
    (store.stateOf ue).ue = ue ∧ (store.stateOf ue).Filed := by
  cases known : store.state? ue with
  | none =>
      rw [stateOf_of_unknown known]
      exact ⟨rfl, UeState.filed_fresh ue _⟩
  | some state =>
      rw [stateOf_of_state? known]
      exact filed ue state known

theorem put (filed : store.Filed) {state : UeState} (owned : state.ue = ue)
    (records : state.Filed) : (store.put ue state).Filed := by
  intro wanted found known
  by_cases same : wanted = ue
  · rw [same, state?_put_self] at known
    cases known
    exact ⟨owned.trans same.symm, records⟩
  · rw [state?_put_of_ne store same] at known
    exact filed wanted found known

theorem remove (filed : store.Filed) (ue : UeId) : (store.remove ue).Filed := by
  intro wanted found known
  by_cases same : wanted = ue
  · rw [same, state?_remove_self] at known
    cases known
  · rw [state?_remove_of_ne store same] at known
    exact filed wanted found known

theorem call (filed : store.Filed) (next : StoreCall) : (store.call next).Filed := by
  cases next with
  | update ue cell rsrp rsrq time =>
      obtain ⟨owned, records⟩ := filed.stateOf ue
      exact filed.put owned (records.updateNeighbour cell rsrp rsrq time)
  | setServing ue cell since =>
      obtain ⟨owned, records⟩ := filed.stateOf ue
      exact filed.put owned (records.setServing cell since)
  | resetHistory ue cell =>
      change (store.resetNeighbourHistory ue cell).Filed
      rcases store.resetNeighbourHistory_cases ue cell with ⟨state, known, reset⟩ | ⟨_, kept⟩
      · obtain ⟨owned, records⟩ := filed ue state known
        rw [reset]
        exact filed.put owned (records.resetNeighbourHistory cell)
      · rw [kept]
        exact filed
  | enter ue =>
      obtain ⟨owned, records⟩ := filed.stateOf ue
      exact filed.put owned records
  | remove ue => exact filed.remove ue

theorem after (filed : store.Filed) (calls : List StoreCall) : (store.after calls).Filed := by
  induction calls using List.reverseRecOn with
  | nil => exact filed
  | append_singleton rest last ih =>
      rw [Store.after, List.foldl_append]
      exact ih.call last

end Filed

/-! ## Results in either order -/

theorem put_put (store : Store) (ue : UeId) (state later : UeState) :
    (store.put ue state).put ue later = store.put ue later :=
  congrArg (Store.mk store.historyLength) (Table.insert_insert _ _ _ _)

theorem put_comm (store : Store) (distinct : ue ≠ other) (state new : UeState) :
    (store.put ue state).put other new = (store.put other new).put ue state :=
  congrArg (Store.mk store.historyLength) (Table.insert_comm _ distinct _ _)

theorem change_change (store : Store) (ue : UeId) (f g : UeState → UeState) :
    (store.change ue f).change ue g = store.change ue fun state => g (f state) := by
  simp only [change, stateOf_put_self, put_put]

theorem change_comm (store : Store) (distinct : ue ≠ other) (f g : UeState → UeState) :
    (store.change ue f).change other g = (store.change other g).change ue f := by
  simp only [change, stateOf_put_of_ne _ distinct, stateOf_put_of_ne _ (Ne.symm distinct)]
  exact store.put_comm distinct _ _

/-- Results for different neighbours or different terminals can be stored in either
order. -/
theorem update_comm (store : Store) {cell neighbour : CellId}
    (distinct : (ue, cell) ≠ (other, neighbour)) (rsrp rsrq : Level) (time : Instant)
    (otherRsrp otherRsrq : Level) (otherTime : Instant) :
    (store.update ue cell rsrp rsrq time).update other neighbour otherRsrp otherRsrq otherTime =
      (store.update other neighbour otherRsrp otherRsrq otherTime).update ue cell rsrp rsrq
        time := by
  by_cases same : ue = other
  · have cells : cell ≠ neighbour := fun equal => distinct (Prod.ext same equal)
    subst same
    simp only [update, change_change]
    exact congrArg (store.change ue) (funext fun state =>
      state.updateNeighbour_comm cell rsrp rsrq time cells otherRsrp otherRsrq otherTime)
  · exact store.change_comm same _ _

/-! ## Listing the records -/

/-- The list holds each record of a terminal once, in whatever order. -/
structure Lists (store : Store) (ue : UeId) (records : List NeighbourRecord) : Prop where
  each : ∀ record, record ∈ records ↔
    ∃ state cell, store.state? ue = some state ∧ state.neighbours.get? cell = some record
  once : records.Nodup

theorem Lists.perm {records order : List NeighbourRecord} (lists : store.Lists ue records)
    (listsToo : store.Lists ue order) : order.Perm records := by
  refine (List.perm_ext_iff_of_nodup listsToo.once lists.once).mpr fun record => ?_
  rw [listsToo.each, lists.each]

theorem snapshot_of_state? {state : UeState} (known : store.state? ue = some state) :
    store.snapshot ue = state.snapshot := by
  rw [snapshot, known]

theorem snapshot_of_unknown (unknown : store.state? ue = none) : store.snapshot ue = [] := by
  rw [snapshot, unknown]

/-- The best record of a terminal is the best one of its list. -/
theorem best?_eq (store : Store) (ue : UeId) (test : NeighbourRecord → Bool) :
    store.best? ue test = NeighbourRecord.best? test (store.snapshot ue) := by
  rw [best?, snapshot]
  cases store.state? ue <;> rfl

namespace Filed

variable (filed : store.Filed)

include filed

theorem ascending_snapshot (ue : UeId) :
    (store.snapshot ue).Pairwise fun first second => first.cell.value < second.cell.value := by
  cases known : store.state? ue with
  | none =>
      rw [snapshot_of_unknown known]
      exact .nil
  | some state =>
      rw [snapshot_of_state? known]
      exact (filed ue state known).2.ascending_cells

theorem nodup_cells (ue : UeId) :
    ((store.snapshot ue).map NeighbourRecord.cell).Nodup := by
  rw [List.nodup_iff_pairwise_ne, List.pairwise_map]
  refine (filed.ascending_snapshot ue).imp fun below same => ?_
  rw [same] at below
  exact UInt16.lt_irrefl _ below

theorem lists_snapshot (ue : UeId) : store.Lists ue (store.snapshot ue) where
  once := (filed.nodup_cells ue).of_map _
  each record := by
    cases known : store.state? ue with
    | none =>
        rw [snapshot_of_unknown known]
        exact iff_of_false List.not_mem_nil nofun
    | some state =>
        rw [snapshot_of_state? known, UeState.snapshot, Table.mem_values_iff]
        constructor
        · rintro ⟨cell, found⟩
          exact ⟨state, cell, rfl, found⟩
        · rintro ⟨other, cell, same, found⟩
          cases same
          exact ⟨cell, found⟩

/-- Records that are listed in any order and sorted by cell are the list of all records. -/
theorem byCell_eq (ue : UeId) {order : List NeighbourRecord} (lists : store.Lists ue order) :
    Inference.Evaluator.byCell order = store.snapshot ue := by
  have same := (filed.lists_snapshot ue).perm lists
  cases known : store.state? ue with
  | none =>
      rw [snapshot_of_unknown known] at same ⊢
      rw [same.eq_nil, Inference.Evaluator.byCell, List.mergeSort_nil]
  | some state =>
      rw [snapshot_of_state? known] at same ⊢
      exact Inference.Evaluator.byCell_eq_snapshot (filed ue state known).2 same

end Filed

/-- Whatever is called, every state is stored under its own terminal and every record under
its own cell, and results for different neighbours or terminals can be stored in either
order.  The list of all records of a terminal holds each of them once by ascending cell
number.  There is no best record exactly if no record satisfies the test, and otherwise it is
the record of greatest quality that does, of the lowest cell among those.  Neither the list
nor the best record depends on the order in which a table visits its records. -/
theorem records_filed_and_ranked (historyLength : Nat) (calls : List StoreCall) :
    let store := (empty historyLength).after calls
    (∀ ue state, store.state? ue = some state →
      state.ue = ue ∧ ∀ cell record, state.neighbours.get? cell = some record →
        record.cell = cell) ∧
    (∀ ue cell other neighbour, (ue, cell) ≠ (other, neighbour) →
      ∀ rsrp rsrq time otherRsrp otherRsrq otherTime,
        (store.update ue cell rsrp rsrq time).update other neighbour otherRsrp otherRsrq
            otherTime =
          (store.update other neighbour otherRsrp otherRsrq otherTime).update ue cell rsrp rsrq
            time) ∧
    ∀ ue, store.Lists ue (store.snapshot ue) ∧
      (store.snapshot ue).Pairwise (fun first second => first.cell.value < second.cell.value) ∧
      ∀ order, store.Lists ue order →
        Inference.Evaluator.byCell order = store.snapshot ue ∧
        ∀ test : NeighbourRecord → Bool,
          NeighbourRecord.best? test order = store.best? ue test ∧
          (store.best? ue test = none ↔ ∀ record ∈ order, test record = false) ∧
          ∀ best, store.best? ue test = some best ↔
            NeighbourRecord.Leads (test · = true) order best := by
  intro store
  have filed : store.Filed := (filed_empty historyLength).after calls
  refine ⟨filed, fun _ _ _ _ distinct => store.update_comm distinct, fun ue => ?_⟩
  refine ⟨filed.lists_snapshot ue, filed.ascending_snapshot ue, fun order lists => ?_⟩
  refine ⟨filed.byCell_eq ue lists, fun test => ?_⟩
  have same : order.Perm (store.snapshot ue) := (filed.lists_snapshot ue).perm lists
  have distinct : (order.map NeighbourRecord.cell).Nodup :=
    (same.map NeighbourRecord.cell).nodup_iff.mpr (filed.nodup_cells ue)
  have visited : NeighbourRecord.best? test order = store.best? ue test := by
    rw [best?_eq, NeighbourRecord.best?_perm (filed.nodup_cells ue) same]
  refine ⟨visited, ?_, fun best => ?_⟩
  · rw [← visited]
    exact NeighbourRecord.best?_eq_none_iff
  · rw [← visited]
    exact NeighbourRecord.best?_eq_some_iff distinct

/-- Two neighbours of the best quality and one of a lower quality, which serves later on, and
a terminal that has gone. -/
def tiedCalls : List StoreCall :=
  [.update ⟨1⟩ ⟨5⟩ 40 25 ⟨0⟩, .update ⟨1⟩ ⟨3⟩ 40 25 ⟨0⟩, .update ⟨1⟩ ⟨4⟩ 40 18 ⟨0⟩,
    .setServing ⟨1⟩ ⟨4⟩ ⟨7⟩, .update ⟨2⟩ ⟨3⟩ 40 9 ⟨7⟩, .remove ⟨2⟩]

/-- The records are visited backwards, and the one of the lower cell is chosen. -/
theorem records_filed_and_ranked_tied :
    let store := (empty 6).after tiedCalls
    (store.update ⟨1⟩ ⟨3⟩ 40 9 ⟨8⟩).update ⟨1⟩ ⟨5⟩ 41 30 ⟨9⟩ =
      (store.update ⟨1⟩ ⟨5⟩ 41 30 ⟨9⟩).update ⟨1⟩ ⟨3⟩ 40 9 ⟨8⟩ ∧
    Inference.Evaluator.byCell (store.snapshot ⟨1⟩).reverse = store.snapshot ⟨1⟩ ∧
    ∃ best, NeighbourRecord.best? (fun _ => true) (store.snapshot ⟨1⟩).reverse = some best ∧
      best.cell = ⟨3⟩ ∧ store.best? ⟨1⟩ (fun _ => true) = some best := by
  intro store
  obtain ⟨_, commute, listing⟩ := records_filed_and_ranked 6 tiedCalls
  obtain ⟨lists, _, orders⟩ := listing ⟨1⟩
  have backwards : store.Lists ⟨1⟩ (store.snapshot ⟨1⟩).reverse :=
    ⟨fun record => List.mem_reverse.trans (lists.each record), List.nodup_reverse.mpr lists.once⟩
  obtain ⟨sorted, ranked⟩ := orders _ backwards
  obtain ⟨visited, _, _⟩ := ranked fun _ => true
  have third : (store.best? ⟨1⟩ fun _ => true).map NeighbourRecord.cell = some ⟨3⟩ := by
    decide +kernel
  obtain ⟨best, chosen, cell⟩ := Option.map_eq_some_iff.mp third
  refine ⟨?_, sorted, best, visited.trans chosen, cell, chosen⟩
  exact commute ⟨1⟩ ⟨3⟩ ⟨1⟩ ⟨5⟩ (by decide) _ _ _ _ _ _

end Store

end Handover
