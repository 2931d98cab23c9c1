import Handover.Proofs.Inference.Selection
import Handover.Proofs.Trend.History

/-!
# The log of a terminal

What becomes known of a terminal can be written down as a log of observations.
Everything that is kept for the terminal can be read off its log: the last result
for each neighbour, the samples since the last event that made a history start
anew, and the serving cell.
-/

namespace Handover

universe u

/-- Something that becomes known of a terminal. -/
inductive Observation where
  /-- A complete result for a neighbour in a discovery report. -/
  | heard (cell : CellId) (rsrp rsrq : Level) (time : Instant)
  /-- A connection to a cell, or a handover to it that has completed. -/
  | served (cell : CellId) (since : Instant)
  /-- An evaluation for a poor serving cell, at which these neighbours faded. -/
  | assessed (servingRsrq : Level) (faded : List CellId)
deriving DecidableEq, Repr

namespace Observation

/-- Power, quality and time of a result for a neighbour. -/
def result? (cell : CellId) : Observation → Option (Level × Level × Instant)
  | heard other rsrp rsrq time => if other = cell then some (rsrp, rsrq, time) else none
  | served _ _ => none
  | assessed _ _ => none

/-- Quality of a neighbour. -/
def quality? (cell : CellId) (observation : Observation) : Option Level :=
  (observation.result? cell).map fun result => result.2.1

/-- The history of a neighbour starts anew: it becomes the serving cell or
fades. -/
def resets (cell : CellId) : Observation → Bool
  | heard _ _ _ _ => false
  | served other _ => other = cell
  | assessed _ faded => cell ∈ faded

/-- A new serving cell and since when. -/
def serving? : Observation → Option (CellId × Instant)
  | heard _ _ _ _ => none
  | served cell since => some (cell, since)
  | assessed _ _ => none

/-- Quality of the serving cell. -/
def servingQuality? : Observation → Option Level
  | heard _ _ _ _ => none
  | served _ _ => none
  | assessed servingRsrq _ => some servingRsrq

end Observation

/-! ## Reading a log -/

namespace Log

variable {β : Type u} (ends : Observation → Bool) (read? : Observation → Option β)
  (log : List Observation) (observation : Observation)

/-- The last entry of a log that something can be read from. -/
def last? : Option β :=
  (log.filterMap read?).getLast?

/-- What can be read from a log after the last entry that ends what was before. -/
def since : List β :=
  (log.rtakeWhile fun entry => !ends entry).filterMap read?

theorem filterMap_concat :
    (log ++ [observation]).filterMap read? =
      log.filterMap read? ++ (read? observation).toList := by
  rw [List.filterMap_append]
  cases read : read? observation <;> simp [read]

theorem last?_concat :
    last? read? (log ++ [observation]) = (read? observation).or (last? read? log) := by
  rw [last?, filterMap_concat, last?]
  cases read? observation with
  | none => simp
  | some value => simp

theorem last?_concat_of_none {read? : Observation → Option β} {observation : Observation}
    (silent : read? observation = none) :
    last? read? (log ++ [observation]) = last? read? log := by
  rw [last?_concat, silent, Option.none_or]

/-- Entries from which nothing can be read do not change what is read last. -/
theorem last?_append_of_silent {more : List Observation}
    (silent : ∀ entry ∈ more, read? entry = none) : last? read? (log ++ more) = last? read? log := by
  rw [last?, List.filterMap_append, List.filterMap_eq_nil_iff.mpr silent, List.append_nil, last?]

variable {ends observation}

theorem since_concat_of_ends (ended : ends observation = true) :
    since ends read? (log ++ [observation]) = [] := by
  rw [since, List.rtakeWhile_concat_neg _ _ _ (by simp [ended])]
  rfl

theorem since_concat (goesOn : ends observation = false) :
    since ends read? (log ++ [observation]) =
      since ends read? log ++ (read? observation).toList := by
  rw [since, List.rtakeWhile_concat_pos _ _ _ (by simp [goesOn]), filterMap_concat, since]

theorem since_concat_of_none {read? : Observation → Option β} (goesOn : ends observation = false)
    (silent : read? observation = none) :
    since ends read? (log ++ [observation]) = since ends read? log := by
  rw [since_concat _ _ goesOn, silent]
  exact List.append_nil _

variable (ends)

theorem since_suffix : since ends read? log <:+ log.filterMap read? :=
  List.IsSuffix.filterMap read? (List.rtakeWhile_suffix _ _)

end Log

/-- Power, quality and time of the last result in a record. -/
def NeighbourRecord.result (record : NeighbourRecord) : Level × Level × Instant :=
  (record.rsrp, record.rsrq, record.lastUpdate)

/-- What is kept for a terminal is what its log tells, in histories of a given
length. -/
structure UeState.Reflects (state : UeState) (window : Nat) (log : List Observation) :
    Prop where
  /-- Records are stored under their own cells. -/
  filed : state.Filed
  /-- There is a record of each neighbour that was heard, with the last result. -/
  results : ∀ cell, (state.neighbours.get? cell).map NeighbourRecord.result =
    Log.last? (Observation.result? cell) log
  /-- Its history holds the last qualities since it was last reset. -/
  histories : ∀ cell record, state.neighbours.get? cell = some record →
    record.history.Keeps window
      (Log.since (Observation.resets cell) (Observation.quality? cell) log)
  /-- The serving cell is the last one. -/
  servingCell : state.servingCell = (Log.last? Observation.serving? log).map Prod.fst
  /-- So is the time since when it serves. -/
  servingSince : state.servingSince = (Log.last? Observation.serving? log).map Prod.snd
  /-- The history of the serving cell holds its last qualities since then. -/
  servingHistory : state.servingHistory.Keeps window
    (Log.since (fun entry => entry.serving?.isSome) Observation.servingQuality? log)
  /-- New histories are as long. -/
  historyLength : state.historyLength = window

namespace UeState.Reflects

variable {state : UeState} {window : Nat} {log : List Observation}

theorem fresh (ue : UeId) (window : Nat) : (UeState.fresh ue window).Reflects window [] where
  filed := filed_fresh ue window
  results _ := rfl
  histories := nofun
  servingCell := rfl
  servingSince := rfl
  servingHistory := Trend.History.keeps_empty window
  historyLength := rfl

/-- The log does not tell of the handover that is under way. -/
theorem withHandover (reflects : state.Reflects window log) (outstanding : Bool)
    (pendingTarget : Option CellId) :
    UeState.Reflects
      { state with outstanding := outstanding, pendingTarget := pendingTarget } window log where
  filed := reflects.filed
  results := reflects.results
  histories := reflects.histories
  servingCell := reflects.servingCell
  servingSince := reflects.servingSince
  servingHistory := reflects.servingHistory
  historyLength := reflects.historyLength

/-- A neighbour without a record was never heard. -/
theorem unheard (reflects : state.Reflects window log) {cell : CellId}
    (unknown : state.neighbours.get? cell = none) :
    Log.since (Observation.resets cell) (Observation.quality? cell) log = [] := by
  have results := reflects.results cell
  rw [unknown, Option.map_none, Log.last?, eq_comm, List.getLast?_eq_none_iff,
    List.filterMap_eq_nil_iff] at results
  apply List.eq_nil_of_suffix_nil
  have silent : log.filterMap (Observation.quality? cell) = [] := by
    rw [List.filterMap_eq_nil_iff]
    intro entry member
    rw [Observation.quality?, results entry member, Option.map_none]
  rw [← silent]
  exact Log.since_suffix _ _ _

/-- The history of a neighbour, with or without a record, to which a result is
added. -/
theorem recordOf_history (reflects : state.Reflects window log) (cell : CellId)
    (rsrp rsrq : Level) (time : Instant) :
    (state.recordOf cell rsrp rsrq time).history.Keeps window
      (Log.since (Observation.resets cell) (Observation.quality? cell) log) := by
  cases known : state.neighbours.get? cell with
  | none =>
      rw [recordOf_of_unknown _ _ _ _ _ known, reflects.unheard known, reflects.historyLength]
      exact Trend.History.keeps_empty window
  | some record =>
      rw [recordOf_of_get? _ _ _ _ _ known]
      exact reflects.histories cell record known

theorem heard (reflects : state.Reflects window log) (cell : CellId) (rsrp rsrq : Level)
    (time : Instant) :
    (state.updateNeighbour cell rsrp rsrq time).Reflects window
      (log ++ [.heard cell rsrp rsrq time]) where
  filed := reflects.filed.updateNeighbour cell rsrp rsrq time
  results other := by
    by_cases same : other = cell
    · rw [same, updateNeighbour_get?_self, Log.last?_concat, Observation.result?, if_pos rfl]
      rfl
    · rw [updateNeighbour_get?_of_ne _ _ _ _ _ same, Log.last?_concat_of_none]
      · exact reflects.results other
      · exact if_neg (Ne.symm same)
  histories other record found := by
    by_cases same : other = cell
    · subst same
      rw [updateNeighbour_get?_self] at found
      cases found
      rw [Log.since_concat _ _ rfl, Observation.quality?, Observation.result?, if_pos rfl]
      exact (reflects.recordOf_history other rsrp rsrq time).push rsrq
    · rw [updateNeighbour_get?_of_ne _ _ _ _ _ same] at found
      rw [Log.since_concat_of_none _ rfl]
      · exact reflects.histories other record found
      · rw [Observation.quality?, Observation.result?, if_neg (Ne.symm same), Option.map_none]
  servingCell := by
    rw [Log.last?_concat_of_none _ rfl]
    exact reflects.servingCell
  servingSince := by
    rw [Log.last?_concat_of_none _ rfl]
    exact reflects.servingSince
  servingHistory := by
    rw [Log.since_concat_of_none _ rfl rfl]
    exact reflects.servingHistory
  historyLength := reflects.historyLength

theorem served (reflects : state.Reflects window log) (cell : CellId) (since : Instant) :
    (state.setServing cell since).Reflects window (log ++ [.served cell since]) where
  filed := reflects.filed.setServing cell since
  results other := by
    rw [Log.last?_concat_of_none _ rfl, ← reflects.results]
    by_cases same : other = cell
    · rw [same, setServing_get?_self, Option.map_map]
      rfl
    · rw [setServing_get?_of_ne _ _ _ same]
  histories other record found := by
    by_cases same : other = cell
    · subst same
      rw [setServing_get?_self] at found
      rcases Option.map_eq_some_iff.mp found with ⟨old, known, rfl⟩
      rw [Log.since_concat_of_ends _ _ (decide_eq_true rfl)]
      exact (reflects.histories other old known).clear
    · rw [setServing_get?_of_ne _ _ _ same] at found
      rw [Log.since_concat_of_none _ (decide_eq_false (Ne.symm same)) rfl]
      exact reflects.histories other record found
  servingCell := by
    rw [Log.last?_concat]
    rfl
  servingSince := by
    rw [Log.last?_concat]
    rfl
  servingHistory := by
    rw [Log.since_concat_of_ends _ _ rfl]
    exact reflects.servingHistory.clear
  historyLength := reflects.historyLength

/-- A history that is not empty ends with the quality in its record. -/
theorem getLast?_history (reflects : state.Reflects window log) {cell : CellId}
    {record : NeighbourRecord} (known : state.neighbours.get? cell = some record)
    (someSample : record.history.samples ≠ []) :
    record.history.samples.getLast? = some record.rsrq := by
  have keeps := reflects.histories cell record known
  have last := reflects.results cell
  rw [known, Option.map_some, Log.last?] at last
  rw [keeps.getLast?_samples someSample]
  -- The newest sample since the last reset is the newest one of all.
  obtain ⟨earlier, split⟩ := Log.since_suffix (Observation.resets cell)
    (Observation.quality? cell) log
  have nonempty : Log.since (Observation.resets cell) (Observation.quality? cell) log ≠ [] := by
    intro none
    rw [keeps.samples, none, List.rtake_nil] at someSample
    exact someSample rfl
  rw [← List.getLast?_append_of_ne_nil earlier nonempty, split]
  have qualities : log.filterMap (Observation.quality? cell) =
      (log.filterMap (Observation.result? cell)).map fun result => result.2.1 := by
    rw [List.map_filterMap]
    rfl
  rw [qualities, List.getLast?_map, ← last]
  rfl

end UeState.Reflects

/-- An evaluation is logged with the neighbours that fade at it. -/
theorem UeState.Reflects.assessed {α : Type} [Scalar α] {state : UeState} {window : Nat}
    {log : List Observation} (reflects : state.Reflects window log)
    (evaluator : Inference.Evaluator α) (now : Instant) (servingRsrq : Level) :
    (evaluator.selectTarget state now servingRsrq).state.Reflects window
      (log ++ [.assessed servingRsrq (evaluator.faded state now servingRsrq)]) where
  filed := evaluator.selectTarget_filed now servingRsrq reflects.filed
  results cell := by
    rw [evaluator.selectTarget_get? now servingRsrq reflects.filed, Option.map_map,
      Log.last?_concat_of_none _ rfl, ← reflects.results]
    apply Option.map_congr
    intro record _
    rw [Function.comp_apply]
    split <;> rfl
  histories cell record found := by
    rw [evaluator.selectTarget_get? now servingRsrq reflects.filed] at found
    rcases Option.map_eq_some_iff.mp found with ⟨old, known, rfl⟩
    have keeps := reflects.histories cell old known
    split
    · next fades =>
      rw [Log.since_concat_of_ends _ _ (decide_eq_true fades)]
      exact keeps.clear
    · next stays =>
      rw [Log.since_concat_of_none _ (decide_eq_false stays) rfl]
      exact keeps
  servingCell := by
    rw [Log.last?_concat_of_none _ rfl, ← reflects.servingCell]
    exact evaluator.selectTarget_servingCell state now servingRsrq
  servingSince := by
    rw [Log.last?_concat_of_none _ rfl, ← reflects.servingSince]
    exact evaluator.selectTarget_servingSince state now servingRsrq
  servingHistory := by
    rw [Log.since_concat _ _ rfl, evaluator.selectTarget_servingHistory]
    exact reflects.servingHistory.push servingRsrq
  historyLength := by
    rw [evaluator.selectTarget_historyLength]
    exact reflects.historyLength

end Handover
