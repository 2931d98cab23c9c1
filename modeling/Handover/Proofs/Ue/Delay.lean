import Handover.Proofs.Ue.Store
import Handover.Proofs.Inference.Selection

/-!
# Telling everything later

What is kept of a terminal holds two kinds of times, when a neighbour was last
reported and since when a cell serves.  Moving all of them by one span commutes with
everything that is done to a state.  Ages stay the same as long as the present does not
run into the end of time: a moved instant that would lie beyond it counts as the last
one, and then it was later than the present before as well.
-/

namespace Handover

/-! ## Instants -/

namespace Instant

/-- The instant can be moved by a span without running into the end of time. -/
def HasRoom (span : Nat) (time : Instant) : Prop :=
  time.micros.toNat + span ≤ latest

instance (span : Nat) (time : Instant) : Decidable (time.HasRoom span) :=
  inferInstanceAs (Decidable (_ ≤ _))

theorem toNat_plus (time : Instant) (span : Nat) :
    (time.plus span).micros.toNat = min (time.micros.toNat + span) latest := by
  have bound : min (time.micros.toNat + span) latest < UInt64.size :=
    Nat.lt_of_le_of_lt (Nat.min_le_right _ _) (by decide)
  exact UInt64.toNat_ofNat_of_lt' bound

theorem HasRoom.toNat_plus {time : Instant} {span : Nat} (room : time.HasRoom span) :
    (time.plus span).micros.toNat = time.micros.toNat + span :=
  (Instant.toNat_plus time span).trans (Nat.min_eq_left room)

/-- Ages seen from an instant with room stay the same. -/
theorem since_plus {now : Instant} {span : Nat} (room : now.HasRoom span) (earlier : Instant) :
    (now.plus span).since (earlier.plus span) = now.since earlier := by
  have limit := room
  rw [HasRoom] at limit
  rw [since, since, room.toNat_plus, Instant.toNat_plus]
  omega

end Instant

/-! ## Records -/

namespace NeighbourRecord

/-- The record with its time moved. -/
def delay (span : Nat) (record : NeighbourRecord) : NeighbourRecord :=
  { record with lastUpdate := record.lastUpdate.plus span }

@[simp]
theorem delay_cell (span : Nat) (record : NeighbourRecord) :
    (record.delay span).cell = record.cell :=
  rfl

@[simp]
theorem delay_history (span : Nat) (record : NeighbourRecord) :
    (record.delay span).history = record.history :=
  rfl

theorem delay_outranks (span : Nat) (first second : NeighbourRecord) :
    (first.delay span).Outranks (second.delay span) ↔ first.Outranks second :=
  Iff.rfl

theorem better_delay (span : Nat) (choice : Option NeighbourRecord) (record : NeighbourRecord) :
    better (choice.map (delay span)) (record.delay span) =
      (better choice record).map (delay span) := by
  cases choice with
  | none => rfl
  | some best =>
      simp only [better, Option.map_some, delay_outranks]
      split <;> rfl

theorem best?_delay (span : Nat) {test : NeighbourRecord → Bool}
    (blind : ∀ record, test (record.delay span) = test record) (records : List NeighbourRecord) :
    best? test (records.map (delay span)) = (best? test records).map (delay span) := by
  have kept : (records.map (delay span)).filter test = (records.filter test).map (delay span) := by
    rw [List.filter_map]
    exact congrArg (List.map (delay span)) (List.filter_congr fun record _ => blind record)
  rw [best?, best?, kept, List.foldl_map, ← Option.map_none]
  exact List.foldl_hom (Option.map (delay span)) (better_delay span)

end NeighbourRecord

/-! ## States -/

namespace UeState

/-- The state with all its times moved. -/
def delay (span : Nat) (state : UeState) : UeState :=
  { state with
    neighbours := state.neighbours.map (NeighbourRecord.delay span)
    servingSince := state.servingSince.map (·.plus span) }

theorem snapshot_delay (span : Nat) (state : UeState) :
    (state.delay span).snapshot = state.snapshot.map (NeighbourRecord.delay span) :=
  Table.values_map _ _

theorem best?_delay (span : Nat) (state : UeState) {test : NeighbourRecord → Bool}
    (blind : ∀ record, test (record.delay span) = test record) :
    (state.delay span).best? test = (state.best? test).map (NeighbourRecord.delay span) := by
  rw [best?, snapshot_delay]
  exact NeighbourRecord.best?_delay span blind state.snapshot

theorem updateNeighbour_delay (span : Nat) (state : UeState) (cell : CellId)
    (rsrp rsrq : Level) (time : Instant) :
    (state.delay span).updateNeighbour cell rsrp rsrq (time.plus span) =
      (state.updateNeighbour cell rsrp rsrq time).delay span := by
  have record : (state.delay span).recordOf cell rsrp rsrq (time.plus span) =
      (state.recordOf cell rsrp rsrq time).delay span := by
    rw [recordOf, recordOf, delay, Table.get?_map]
    cases state.neighbours.get? cell <;> rfl
  simp only [updateNeighbour, record]
  rw [delay, delay, Table.map_insert]
  rfl

theorem resetNeighbourHistory_delay (span : Nat) (state : UeState) (cell : CellId) :
    (state.delay span).resetNeighbourHistory cell =
      (state.resetNeighbourHistory cell).delay span := by
  simp only [resetNeighbourHistory, delay]
  rw [Table.map_modify state.neighbours (NeighbourRecord.delay span) .resetHistory .resetHistory
    fun _ => rfl]

theorem setServing_delay (span : Nat) (state : UeState) (cell : CellId) (since : Instant) :
    (state.delay span).setServing cell (since.plus span) =
      (state.setServing cell since).delay span :=
  resetNeighbourHistory_delay span
    { state with
      servingCell := some cell
      servingSince := some since
      servingHistory := state.servingHistory.clear } cell

/-- All times that are kept for the terminal are among the known ones. -/
structure Dated (known : Instant → Prop) (state : UeState) : Prop where
  records : ∀ record ∈ state.snapshot, known record.lastUpdate
  serving : ∀ since, state.servingSince = some since → known since

variable {known : Instant → Prop} {state : UeState}

theorem dated_fresh (known : Instant → Prop) (ue : UeId) (historyLength : Nat) :
    (fresh ue historyLength).Dated known :=
  ⟨nofun, nofun⟩

theorem Dated.withHandover (dated : state.Dated known) (outstanding : Bool)
    (pendingTarget : Option CellId) :
    Dated known { state with outstanding := outstanding, pendingTarget := pendingTarget } :=
  ⟨dated.records, dated.serving⟩

theorem Dated.updateNeighbour (dated : state.Dated known) (cell : CellId) (rsrp rsrq : Level)
    {time : Instant} (told : known time) :
    (state.updateNeighbour cell rsrp rsrq time).Dated known := by
  refine ⟨fun record member => ?_, dated.serving⟩
  rcases Table.mem_values_of_insert member with rfl | old
  · exact told
  · exact dated.records record old

theorem Dated.resetNeighbourHistory (dated : state.Dated known) (cell : CellId) :
    (state.resetNeighbourHistory cell).Dated known := by
  refine ⟨fun record member => ?_, dated.serving⟩
  rcases Table.mem_values_of_modify member with old | ⟨old, oldMember, rfl⟩
  · exact dated.records record old
  · exact dated.records old oldMember

theorem Dated.setServing (dated : state.Dated known) (cell : CellId) {since : Instant}
    (told : known since) : (state.setServing cell since).Dated known := by
  have renamed : Dated known { state with
      servingCell := some cell
      servingSince := some since
      servingHistory := state.servingHistory.clear } := by
    refine ⟨dated.records, fun time same => ?_⟩
    cases same
    exact told
  exact renamed.resetNeighbourHistory cell

end UeState

/-! ## Stores -/

namespace Store

/-- The store with all its times moved. -/
def delay (span : Nat) (store : Store) : Store :=
  { store with ues := store.ues.map (UeState.delay span) }

variable (span : Nat) (store : Store) (ue : UeId)

theorem state?_delay : (store.delay span).state? ue = (store.state? ue).map (UeState.delay span) :=
  Table.get?_map _ _ _

theorem stateOf_delay : (store.delay span).stateOf ue = (store.stateOf ue).delay span := by
  rw [stateOf, stateOf, state?_delay]
  cases store.state? ue <;> rfl

theorem put_delay (state : UeState) :
    (store.delay span).put ue (state.delay span) = (store.put ue state).delay span := by
  rw [put, put, delay, delay, Table.map_insert]

theorem remove_delay : (store.delay span).remove ue = (store.remove ue).delay span := by
  rw [remove, remove, delay, delay, Table.map_erase]

theorem update_delay (cell : CellId) (rsrp rsrq : Level) (time : Instant) :
    (store.delay span).update ue cell rsrp rsrq (time.plus span) =
      (store.update ue cell rsrp rsrq time).delay span := by
  rw [update, update, change, change, stateOf_delay, UeState.updateNeighbour_delay, put_delay]

theorem best?_delay {test : NeighbourRecord → Bool}
    (blind : ∀ record, test (record.delay span) = test record) :
    (store.delay span).best? ue test = (store.best? ue test).map (NeighbourRecord.delay span) := by
  rw [best?, best?, state?_delay]
  cases store.state? ue with
  | none => rfl
  | some state => exact state.best?_delay span blind

end Store

/-! ## Evaluations of a terminal -/

namespace Inference

variable {α : Type} [Scalar α]

/-- The selection with the times in its state moved. -/
def Selection.delay (span : Nat) (selection : Selection α) : Selection α :=
  { selection with state := selection.state.delay span }

namespace Evaluator

variable (evaluator : Evaluator α) {now : Instant} {span : Nat} (room : now.HasRoom span)
include room

omit [Scalar α] in
theorem usable_delay (lastUpdate : Instant) (rsrq : Level) :
    evaluator.Usable (now.plus span) (lastUpdate.plus span) rsrq ↔
      evaluator.Usable now lastUpdate rsrq := by
  rw [Usable, Usable, Instant.since_plus room]

omit room in
theorem score_delay (serving : α) (record : NeighbourRecord) :
    evaluator.score serving (record.delay span) = evaluator.score serving record :=
  rfl

omit room in
theorem weigh_delay (serving : α) (found : Selection α) (cell : CellId)
    (record : NeighbourRecord) :
    evaluator.weigh serving (found.delay span) cell (record.delay span) =
      (evaluator.weigh serving found cell record).delay span := by
  unfold weigh
  rw [score_delay]
  cases evaluator.score serving record with
  | error fault => rfl
  | ok score =>
      dsimp only
      rw [apply_ite (Selection.delay span)]
      rfl

/-- A candidate with a later time is looked at in the same way. -/
theorem examine_delay (serving : α) (found : Selection α) (record : NeighbourRecord) :
    evaluator.examine (now.plus span) serving (found.delay span) (.ofRecord (record.delay span)) =
      (evaluator.examine now serving found (.ofRecord record)).delay span := by
  have lookup : (found.delay span).state.neighbours.get? record.cell =
      (found.state.neighbours.get? record.cell).map (.delay span) := Table.get?_map _ _ _
  unfold examine
  rw [apply_ite (Selection.delay span)]
  refine if_congr (evaluator.usable_delay room record.lastUpdate record.rsrq) ?_ ?_
  · simp only [Candidate.ofRecord, NeighbourRecord.delay_cell, lookup]
    cases found.state.neighbours.get? record.cell with
    | none => rfl
    | some seen =>
        dsimp only [Option.map_some, NeighbourRecord.delay_history]
        rw [weigh_delay, apply_ite (Selection.delay span)]
        rfl
  · exact congrArg (Selection.mk · found.choice found.warnings)
      (UeState.resetNeighbourHistory_delay span found.state record.cell)

/-- The loop over records with later times comes out the same. -/
theorem scan_delay (serving : α) (state : UeState) (records : List NeighbourRecord) :
    evaluator.scan (now.plus span) serving (state.delay span) (records.map (.delay span)) =
      (evaluator.scan now serving state records).delay span := by
  have candidates : (records.map (NeighbourRecord.delay span)).filter
        (isCandidate (state.delay span)) =
      (records.filter (isCandidate state)).map (.delay span) := List.filter_map
  have start : Selection.mk (state.delay span) none [] =
      (⟨state, none, []⟩ : Selection α).delay span := rfl
  rw [scan_eq_foldl, scan_eq_foldl, candidates, List.foldl_map, start]
  exact List.foldl_hom (Selection.delay span) (evaluator.examine_delay room serving)

/-- An evaluation at a later time of a state with later times comes out the same. -/
theorem selectTarget_delay (state : UeState) (servingRsrq : Level) :
    evaluator.selectTarget (state.delay span) (now.plus span) servingRsrq =
      (evaluator.selectTarget state now servingRsrq).delay span := by
  have observed : observe (state.delay span) servingRsrq =
      (observe state servingRsrq).delay span := rfl
  have samples : ((observe state servingRsrq).delay span).servingHistory =
      (observe state servingRsrq).servingHistory := rfl
  simp only [selectTarget, observed, samples]
  split
  · rfl
  · rw [UeState.snapshot_delay]
    exact evaluator.scan_delay room _ _ _

end Evaluator

end Inference

/-- An evaluation keeps the times as they are. -/
theorem UeState.Dated.selectTarget {α : Type} [Scalar α] {known : Instant → Prop}
    {state : UeState} (dated : state.Dated known) (evaluator : Inference.Evaluator α)
    (now : Instant) (servingRsrq : Level) :
    (evaluator.selectTarget state now servingRsrq).state.Dated known := by
  have observed : (Inference.Evaluator.observe state servingRsrq).Dated known :=
    ⟨dated.records, dated.serving⟩
  simp only [Inference.Evaluator.selectTarget]
  split
  · exact observed
  · exact evaluator.scan_state (motive := UeState.Dated known) observed fun _ cell kept =>
      kept.resetNeighbourHistory cell

end Handover
