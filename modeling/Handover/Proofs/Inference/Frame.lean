import Handover.Proofs.Inference.Ranking
import Handover.Proofs.Trend.History

/-!
# What an evaluation leaves

An evaluation adds one sample of the serving cell and empties the histories of the
neighbours that fade, if there is a link quality of the serving cell.  Nothing else of
the state changes, and neither the threshold nor the scores of the neighbours have a
part in it.
-/

namespace Handover

open Trend

/-- What an evaluation leaves of a state: one more sample of the serving cell, and the
neighbours without the histories of those that fade. -/
structure UeState.Leaves (before after : UeState) (servingRsrq : Level)
    (fades : NeighbourRecord → Prop) : Prop where
  ue : after.ue = before.ue
  outstanding : after.outstanding = before.outstanding
  pendingTarget : after.pendingTarget = before.pendingTarget
  servingCell : after.servingCell = before.servingCell
  servingSince : after.servingSince = before.servingSince
  historyLength : after.historyLength = before.historyLength
  servingHistory : after.servingHistory = before.servingHistory.push servingRsrq
  /-- Of all samples received, the last ones are kept. -/
  appended : ∀ {capacity received}, before.servingHistory.Keeps capacity received →
    after.servingHistory.Keeps capacity (received ++ [servingRsrq])
  cells : after.neighbours.keys = before.neighbours.keys
  emptied : ∀ cell record, before.neighbours.get? cell = some record → fades record →
    ∃ history : History, after.neighbours.get? cell = some { record with history := history } ∧
      history.samples = [] ∧ history.capacity = record.history.capacity
  kept : ∀ cell record, before.neighbours.get? cell = some record → ¬fades record →
    after.neighbours.get? cell = some record

theorem Table.keys_map {κ ν μ : Type} [Keyed κ] (table : Table κ ν) (change : ν → μ) :
    (table.map change).keys = table.keys := by
  simp [keys, map, Function.comp_def]

namespace Inference.Evaluator

variable {α : Type} [Scalar α] (evaluator : Evaluator α) (state : UeState) (now : Instant)
  (servingRsrq : Level)

/-- A neighbour loses its history in an evaluation. -/
def Resets (record : NeighbourRecord) : Prop :=
  (∃ quality, evaluator.servingQuality (samplesOf (state.servingHistory.push servingRsrq)) =
    .ok quality) ∧ evaluator.Fades state now record

variable {state} in
theorem mem_faded_iff_resets (filed : state.Filed) {cell : CellId} {record : NeighbourRecord}
    (known : state.neighbours.get? cell = some record) :
    cell ∈ evaluator.faded state now servingRsrq ↔
      evaluator.Resets state now servingRsrq record := by
  cases computed : evaluator.servingQuality
      (samplesOf (state.servingHistory.push servingRsrq)) with
  | error fault => simp [faded, Resets, computed]
  | ok quality =>
      rw [evaluator.mem_faded now servingRsrq computed filed known, Resets, computed]
      exact (and_iff_right ⟨quality, rfl⟩).symm

variable {state} in
/-- The neighbours after an evaluation. -/
theorem selectTarget_neighbours (filed : state.Filed) (cell : CellId) {record : NeighbourRecord}
    (known : state.neighbours.get? cell = some record) :
    (evaluator.Resets state now servingRsrq record →
      (evaluator.selectTarget state now servingRsrq).state.neighbours.get? cell =
        some record.resetHistory) ∧
      (¬evaluator.Resets state now servingRsrq record →
        (evaluator.selectTarget state now servingRsrq).state.neighbours.get? cell =
          some record) := by
  rw [evaluator.selectTarget_get? now servingRsrq filed, known, Option.map_some,
    ← evaluator.mem_faded_iff_resets now servingRsrq filed known]
  constructor
  · intro faded
    exact congrArg some (if_pos faded)
  · intro kept
    exact congrArg some (if_neg kept)

variable {state} in
theorem selectTarget_keys (filed : state.Filed) :
    (evaluator.selectTarget state now servingRsrq).state.neighbours.keys =
      state.neighbours.keys := by
  cases computed : evaluator.servingQuality
      (samplesOf (state.servingHistory.push servingRsrq)) with
  | error fault =>
      rw [evaluator.selectTarget_of_error computed]
      rfl
  | ok quality =>
      rw [evaluator.selectTarget_eq filed computed]
      exact Table.keys_map _ _

/-- Only the system of the serving cell and the stale window have a part in what is
left.  The scores of the neighbours and the threshold decide what the loop chooses and
warns of, but not which histories it empties on its way. -/
theorem selectTarget_state_congr {other : Evaluator α}
    (system : other.servingSystem = evaluator.servingSystem)
    (window : other.staleWindow = evaluator.staleWindow) :
    (other.selectTarget state now servingRsrq).state =
      (evaluator.selectTarget state now servingRsrq).state := by
  have same : other.servingQuality = evaluator.servingQuality := by
    funext samples
    rw [servingQuality, servingQuality, system]
  cases computed : evaluator.servingQuality
      (samplesOf (state.servingHistory.push servingRsrq)) with
  | error fault =>
      rw [evaluator.selectTarget_of_error computed,
        other.selectTarget_of_error (same ▸ computed)]
  | ok quality =>
      rw [evaluator.selectTarget_of_ok computed, other.selectTarget_of_ok (same ▸ computed),
        scan_state_eq, scan_state_eq, evaluator.emptied_congr window]

/-- An evaluation of a state that keeps its records under their own cells adds the sample
of the serving cell and, if there is a link quality of the serving cell, empties the
histories of the neighbours that fade.  It leaves the rest of the state, and any other
evaluator with the same system of the serving cell and the same stale window leaves the
same, whatever its threshold and whether or not it finds a target or a neighbour has no
score. -/
theorem evaluation_leaves (filed : state.Filed) :
    (state.Leaves (evaluator.selectTarget state now servingRsrq).state servingRsrq
      (evaluator.Resets state now servingRsrq)) ∧
      ∀ other : Evaluator α, other.servingSystem = evaluator.servingSystem →
        other.staleWindow = evaluator.staleWindow →
          (other.selectTarget state now servingRsrq).state =
            (evaluator.selectTarget state now servingRsrq).state := by
  refine ⟨?_, fun other => evaluator.selectTarget_state_congr state now servingRsrq⟩
  have appended := evaluator.selectTarget_servingHistory state now servingRsrq
  have neighbours := evaluator.selectTarget_neighbours now servingRsrq filed
  exact {
    ue := by
      obtain ⟨_, written⟩ := evaluator.selectTarget_state state now servingRsrq
      rw [written]
    outstanding := evaluator.selectTarget_outstanding state now servingRsrq
    pendingTarget := evaluator.selectTarget_pendingTarget state now servingRsrq
    servingCell := evaluator.selectTarget_servingCell state now servingRsrq
    servingSince := evaluator.selectTarget_servingSince state now servingRsrq
    historyLength := evaluator.selectTarget_historyLength state now servingRsrq
    servingHistory := appended
    appended := fun keeps => appended ▸ keeps.push servingRsrq
    cells := evaluator.selectTarget_keys now servingRsrq filed
    emptied := fun cell record known resets =>
      ⟨record.history.clear, (neighbours cell known).1 resets, rfl, rfl⟩
    kept := fun cell record known => (neighbours cell known).2 }

theorem evaluation_leaves_plain :
    let state := (((UeState.fresh ⟨7⟩ 6).updateNeighbour ⟨9⟩ 50 30 ⟨10⟩).updateNeighbour
      ⟨5⟩ 50 0 ⟨300000⟩).updateNeighbour ⟨2⟩ 50 20 ⟨300000⟩
    state.Filed ∧ state.servingHistory.Keeps 6 [] ∧
      ∃ evaluator, typeOne plain (.number (1 / 2)) 240000 = .ok evaluator ∧
        let after := (evaluator.selectTarget state ⟨300000⟩ 12).state
        (after.snapshot.map fun record => (record.cell.value, record.history.samples)) =
            [(2, [20]), (5, []), (9, [])] ∧
          after.servingHistory.Keeps 6 [12] ∧
          ((evaluator.withThreshold (.number 1)).selectTarget state ⟨300000⟩ 12).state = after := by
  intro state
  have filed : state.Filed :=
    (((UeState.filed_fresh _ _).updateNeighbour _ _ _ _).updateNeighbour _ _ _ _).updateNeighbour
      _ _ _ _
  have keeps : state.servingHistory.Keeps 6 [] := History.keeps_empty 6
  have evaluated : (typeOne plain (.number (1 / 2)) 240000).toOption.any (fun evaluator =>
      ((evaluator.selectTarget state ⟨300000⟩ 12).state.snapshot.map fun record =>
        (record.cell.value, record.history.samples)) = [(2, [20]), (5, []), (9, [])]) = true := by
    decide +kernel
  obtain ⟨evaluator, built, listed⟩ := exists_of_any_toOption evaluated
  have left := evaluation_leaves evaluator state ⟨300000⟩ 12 filed
  exact ⟨filed, keeps, evaluator, built, of_decide_eq_true listed, left.1.appended keeps,
    left.2 (evaluator.withThreshold _) rfl rfl⟩

end Inference.Evaluator

end Handover
