import Handover.Proofs.Table
import Handover.Ue.State

/-!
# Looking up neighbours

What a lookup of a neighbour finds after each operation on the state of a
terminal.  Records are stored under their own cells, and no operation writes the
record of another cell than the one it is about.
-/

namespace Handover.UeState

/-! ## Lookups -/

section Lookups

variable (state : UeState) (cell : CellId) (rsrp rsrq : Level) (time : Instant)

@[simp]
theorem updateNeighbour_get?_self :
    (state.updateNeighbour cell rsrp rsrq time).neighbours.get? cell =
      some ((state.recordOf cell rsrp rsrq time).update rsrp rsrq time) :=
  Table.get?_insert_self _ _ _

theorem updateNeighbour_get?_of_ne {other : CellId} (distinct : other ≠ cell) :
    (state.updateNeighbour cell rsrp rsrq time).neighbours.get? other =
      state.neighbours.get? other :=
  Table.get?_insert_of_ne _ distinct _

@[simp]
theorem setServing_get?_self :
    (state.setServing cell time).neighbours.get? cell =
      (state.neighbours.get? cell).map .resetHistory :=
  Table.get?_modify_self _ _ _

theorem setServing_get?_of_ne {other : CellId} (distinct : other ≠ cell) :
    (state.setServing cell time).neighbours.get? other = state.neighbours.get? other :=
  Table.get?_modify_of_ne _ distinct _

theorem recordOf_of_get? {record : NeighbourRecord}
    (known : state.neighbours.get? cell = some record) :
    state.recordOf cell rsrp rsrq time = record := by
  rw [recordOf, known, Option.getD_some]

theorem recordOf_of_unknown (unknown : state.neighbours.get? cell = none) :
    state.recordOf cell rsrp rsrq time =
      ⟨cell, rsrp, rsrq, time, .empty state.historyLength⟩ := by
  rw [recordOf, unknown, Option.getD_none]

/-- Results for different neighbours can be stored in either order. -/
theorem updateNeighbour_comm {other : CellId} (distinct : cell ≠ other) (otherRsrp otherRsrq : Level)
    (otherTime : Instant) :
    (state.updateNeighbour cell rsrp rsrq time).updateNeighbour other otherRsrp otherRsrq otherTime =
      (state.updateNeighbour other otherRsrp otherRsrq otherTime).updateNeighbour cell rsrp rsrq
        time := by
  simp only [updateNeighbour, recordOf, Table.get?_insert_of_ne _ distinct,
    Table.get?_insert_of_ne _ (Ne.symm distinct)]
  rw [Table.insert_comm _ distinct]

end Lookups

/-! ## Records under their own cells -/

/-- Every record is stored under its own cell.  A fresh state has no record, and every
operation on a state keeps it so. -/
def Filed (state : UeState) : Prop :=
  ∀ cell record, state.neighbours.get? cell = some record → record.cell = cell

theorem filed_fresh (ue : UeId) (historyLength : Nat) : (fresh ue historyLength).Filed :=
  nofun

/-- A record of the cell shows a quality other than zero. -/
def Shows (state : UeState) (cell : CellId) : Prop :=
  ∃ record, state.neighbours.get? cell = some record ∧ record.rsrq ≠ 0

namespace Filed

variable {state : UeState}

theorem recordOf_cell (filed : state.Filed) (cell : CellId) (rsrp rsrq : Level)
    (time : Instant) : (state.recordOf cell rsrp rsrq time).cell = cell := by
  cases known : state.neighbours.get? cell with
  | none => rw [recordOf_of_unknown _ _ _ _ _ known]
  | some record =>
      rw [recordOf_of_get? _ _ _ _ _ known]
      exact filed cell record known

theorem updateNeighbour (filed : state.Filed) (cell : CellId) (rsrp rsrq : Level)
    (time : Instant) : (state.updateNeighbour cell rsrp rsrq time).Filed := by
  intro other record found
  by_cases same : other = cell
  · rw [same, updateNeighbour_get?_self] at found
    cases found
    exact (filed.recordOf_cell cell rsrp rsrq time).trans same.symm
  · rw [updateNeighbour_get?_of_ne _ _ _ _ _ same] at found
    exact filed other record found

theorem resetNeighbourHistory (filed : state.Filed) (cell : CellId) :
    (state.resetNeighbourHistory cell).Filed := by
  intro other record found
  rw [UeState.resetNeighbourHistory] at found
  by_cases same : other = cell
  · rw [same, Table.get?_modify_self] at found
    rcases Option.map_eq_some_iff.mp found with ⟨old, known, rfl⟩
    exact (filed cell old known).trans same.symm
  · rw [Table.get?_modify_of_ne _ same] at found
    exact filed other record found

theorem setServing (filed : state.Filed) (cell : CellId) (since : Instant) :
    (state.setServing cell since).Filed := by
  have named : Filed { state with
      servingCell := some cell
      servingSince := some since
      servingHistory := state.servingHistory.clear } := filed
  exact named.resetNeighbourHistory cell

/-- A record is found under its own cell. -/
theorem get?_of_mem (filed : state.Filed) {record : NeighbourRecord}
    (member : record ∈ state.snapshot) : state.neighbours.get? record.cell = some record := by
  rcases Table.mem_values_iff.mp member with ⟨cell, found⟩
  rw [filed cell record found]
  exact found

theorem shows (filed : state.Filed) {record : NeighbourRecord}
    (member : record ∈ state.snapshot) (nonzero : record.rsrq ≠ 0) : state.Shows record.cell :=
  ⟨record, filed.get?_of_mem member, nonzero⟩

theorem map_cell_snapshot (filed : state.Filed) :
    state.snapshot.map NeighbourRecord.cell = state.neighbours.keys := by
  rw [snapshot, Table.values, Table.keys, List.map_map]
  refine List.map_congr_left ?_
  rintro ⟨cell, record⟩ member
  exact filed cell record (Table.mem_entries_iff.mp member)

/-- No two records are of the same cell. -/
theorem nodup_cells (filed : state.Filed) :
    (state.snapshot.map NeighbourRecord.cell).Nodup := by
  rw [filed.map_cell_snapshot]
  exact state.neighbours.nodup_keys

/-- Records are listed by ascending cell number. -/
theorem ascending_cells (filed : state.Filed) :
    state.snapshot.Pairwise fun first second => first.cell.value < second.cell.value := by
  have keys : state.neighbours.keys.Pairwise fun first second => first.value < second.value :=
    List.pairwise_map.mpr state.neighbours.ascending
  rwa [← filed.map_cell_snapshot, List.pairwise_map] at keys

end Filed

end Handover.UeState
