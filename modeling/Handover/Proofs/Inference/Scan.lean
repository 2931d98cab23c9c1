import Handover.Inference.Evaluator
import Handover.Proofs.Ue.State
import Mathlib.Logic.Basic

/-!
# The loop of an evaluation

An evaluation lists its candidates before it looks at the first one, and empties
histories while it goes through them.  Looking at one candidate resets at most its own
history, so the candidates that are still to come are found as they were when the
evaluation began.  Hence the loop ends with the records, the choice and the warnings
that can be read off the records at the start.
-/

namespace Handover.Inference.Evaluator

open Fuzzy

variable {α : Type} (evaluator : Evaluator α)

/-! ## What a record contributes -/

/-- The record after an evaluation: a candidate that is stale or has no quality
loses its history. -/
def refresh (now : Instant) (state : UeState) (record : NeighbourRecord) : NeighbourRecord :=
  if isCandidate state record ∧ ¬evaluator.Usable now record.lastUpdate record.rsrq then
    record.resetHistory
  else record

/-- The warning for a candidate that has no score. -/
def warning? (ue : UeId) (candidate : CellId × Option (Except (FuzzyError α) α)) :
    Option (Warning α) :=
  match candidate.2 with
  | some (.error error) => some (.notScored ue candidate.1 error)
  | _ => none

variable [Scalar α]

/-- The score of a record, unless it is unusable or has no samples. -/
def scored? (now : Instant) (serving : α) (record : NeighbourRecord) :
    Option (Except (FuzzyError α) α) :=
  if evaluator.Usable now record.lastUpdate record.rsrq ∧ record.history.isEmpty = false then
    some (evaluator.score serving record)
  else none

/-- The better of an earlier choice and a scored record.  Only a score above the
threshold counts, and a later one has to be strictly better. -/
def prefer (choice : Option (CellId × α))
    (candidate : CellId × Option (Except (FuzzyError α) α)) : Option (CellId × α) :=
  match candidate.2 with
  | some (.ok score) =>
    if evaluator.abstentionThreshold < score then
      match choice with
      | none => some (candidate.1, score)
      | some (cell, best) =>
        if best < score then some (candidate.1, score) else some (cell, best)
    else choice
  | _ => choice

/-- The candidates among some records, each with its score. -/
def candidates (now : Instant) (serving : α) (state : UeState) (records : List NeighbourRecord) :
    List (CellId × Option (Except (FuzzyError α) α)) :=
  (records.filter (isCandidate state)).map fun record =>
    (record.cell, evaluator.scored? now serving record)

theorem improves_none (score : α) : Improves none score :=
  nofun

theorem improves_some_iff {best : CellId × α} {score : α} :
    Improves (some best) score ↔ best.2 < score := by
  simp [Improves]

theorem prefer_ok (choice : Option (CellId × α)) (cell : CellId) (score : α) :
    evaluator.prefer choice (cell, some (.ok score)) =
      if evaluator.abstentionThreshold < score ∧ Improves choice score then some (cell, score)
      else choice := by
  cases choice with
  | none => simp [prefer, improves_none]
  | some best =>
      obtain ⟨kept, most⟩ := best
      simp only [prefer, improves_some_iff, ite_and]

/-! ## One candidate -/

section Step

variable (now : Instant) (serving : α) (found : Selection α)

/-- What looking at a candidate can do. -/
inductive Examined (candidate : Candidate) : Selection α → Prop
  | resets (unusable : ¬evaluator.Usable now candidate.lastUpdate candidate.rsrq) :
      Examined candidate
        { found with state := found.state.resetNeighbourHistory candidate.cell }
  | passes (usable : evaluator.Usable now candidate.lastUpdate candidate.rsrq) :
      Examined candidate found
  | warns (usable : evaluator.Usable now candidate.lastUpdate candidate.rsrq)
      (record : NeighbourRecord) (fault : FuzzyError α)
      (failed : evaluator.score serving record = .error fault) :
      Examined candidate
        { found with
          warnings := found.warnings ++ [.notScored found.state.ue candidate.cell fault] }
  | takes (usable : evaluator.Usable now candidate.lastUpdate candidate.rsrq)
      (record : NeighbourRecord) (score : α)
      (scored : evaluator.score serving record = .ok score)
      (above : evaluator.abstentionThreshold < score) (improves : Improves found.choice score) :
      Examined candidate { found with choice := some (candidate.cell, score) }

theorem examined_weigh {candidate : Candidate}
    (usable : evaluator.Usable now candidate.lastUpdate candidate.rsrq)
    (record : NeighbourRecord) :
    evaluator.Examined now serving found candidate
      (evaluator.weigh serving found candidate.cell record) := by
  unfold weigh
  split
  · next fault failed => exact .warns usable record fault failed
  · next score scored =>
    split
    · next better => exact .takes usable record score scored better.1 better.2
    · exact .passes usable

theorem examined (candidate : Candidate) :
    evaluator.Examined now serving found candidate
      (evaluator.examine now serving found candidate) := by
  unfold examine
  split
  · next usable =>
    split
    · exact .passes usable
    · split
      · exact .passes usable
      · exact evaluator.examined_weigh now serving found usable _
  · next unusable => exact .resets unusable

/-- The neighbours once a record was looked at. -/
def emptied (neighbours : Table CellId NeighbourRecord) (record : NeighbourRecord) :
    Table CellId NeighbourRecord :=
  if evaluator.Usable now record.lastUpdate record.rsrq then neighbours
  else neighbours.modify record.cell .resetHistory

omit [Scalar α] in
theorem emptied_of_usable {now : Instant} {record : NeighbourRecord}
    (usable : evaluator.Usable now record.lastUpdate record.rsrq)
    (neighbours : Table CellId NeighbourRecord) :
    evaluator.emptied now neighbours record = neighbours :=
  if_pos usable

omit [Scalar α] in
theorem emptied_of_unusable {now : Instant} {record : NeighbourRecord}
    (unusable : ¬evaluator.Usable now record.lastUpdate record.rsrq)
    (neighbours : Table CellId NeighbourRecord) :
    evaluator.emptied now neighbours record = neighbours.modify record.cell .resetHistory :=
  if_neg unusable

/-- Whatever comes of its score, looking at a candidate resets its history or changes
nothing of the state. -/
theorem examine_state (record : NeighbourRecord) :
    (evaluator.examine now serving found (.ofRecord record)).state =
      { found.state with neighbours := evaluator.emptied now found.state.neighbours record } := by
  have examined := evaluator.examined now serving found (.ofRecord record)
  generalize evaluator.examine now serving found (.ofRecord record) = next at examined ⊢
  cases examined with
  | resets unusable =>
      rw [evaluator.emptied_of_unusable unusable]
      rfl
  | passes usable => rw [evaluator.emptied_of_usable usable]
  | warns usable => rw [evaluator.emptied_of_usable usable]
  | takes usable => rw [evaluator.emptied_of_usable usable]

theorem weigh_eq (cell : CellId) (record : NeighbourRecord) :
    let candidate := (cell, some (evaluator.score serving record))
    evaluator.weigh serving found cell record =
      { state := found.state
        choice := evaluator.prefer found.choice candidate
        warnings := found.warnings ++ (warning? found.state.ue candidate).toList } := by
  unfold weigh
  cases evaluator.score serving record with
  | error fault => rfl
  | ok score =>
      simp only [prefer_ok, warning?, Option.toList_none, List.append_nil]
      split <;> rfl

/-- A candidate that no earlier one has touched contributes what its record said when it
was listed. -/
theorem examine_ofRecord {record : NeighbourRecord}
    (untouched : evaluator.Usable now record.lastUpdate record.rsrq →
      found.state.neighbours.get? record.cell = some record) :
    let candidate := (record.cell, evaluator.scored? now serving record)
    evaluator.examine now serving found (.ofRecord record) =
      { state :=
          { found.state with neighbours := evaluator.emptied now found.state.neighbours record }
        choice := evaluator.prefer found.choice candidate
        warnings := found.warnings ++ (warning? found.state.ue candidate).toList } := by
  simp only [examine, emptied, scored?, Candidate.ofRecord]
  by_cases usable : evaluator.Usable now record.lastUpdate record.rsrq
  · rw [untouched usable]
    cases silent : record.history.isEmpty with
    | true => simp [usable, silent, prefer, warning?]
    | false => simp [usable, silent, weigh_eq]
  · simp [usable, prefer, warning?, UeState.resetNeighbourHistory]

end Step

/-! ## All candidates -/

section Run

variable (now : Instant) (serving : α) (state : UeState) (records : List NeighbourRecord)

theorem scan_eq_foldl :
    evaluator.scan now serving state records =
      (records.filter (isCandidate state)).foldl
        (fun found record => evaluator.examine now serving found (.ofRecord record))
        ⟨state, none, []⟩ :=
  List.foldl_map

variable {now serving state records}

/-- What holds at the start and stays when a candidate is looked at holds in the end. -/
theorem scan_induction {motive : Selection α → Prop} (start : motive ⟨state, none, []⟩)
    (step : ∀ found, motive found → ∀ record ∈ records, isCandidate state record = true →
      ∀ next, evaluator.Examined now serving found (.ofRecord record) next → motive next) :
    motive (evaluator.scan now serving state records) := by
  rw [scan_eq_foldl]
  apply List.foldlRecOn _ _ start
  intro found kept record member
  obtain ⟨listed, candidate⟩ := List.mem_filter.mp member
  exact step found kept record listed candidate _ (evaluator.examined now serving found _)

/-- What stays when the history of a neighbour is reset stays in an evaluation. -/
theorem scan_state {motive : UeState → Prop} (start : motive state)
    (reset : ∀ state cell, motive state → motive (state.resetNeighbourHistory cell)) :
    motive (evaluator.scan now serving state records).state := by
  apply evaluator.scan_induction (motive := fun found => motive found.state) start
  rintro found kept record - - next (_ | _ | _ | _)
  · exact reset _ _ kept
  all_goals exact kept

theorem foldl_examine_state (found : Selection α) :
    (records.foldl (fun found record => evaluator.examine now serving found (.ofRecord record))
      found).state =
        { found.state with
          neighbours := records.foldl (evaluator.emptied now) found.state.neighbours } := by
  induction records generalizing found with
  | nil => rfl
  | cons record rest ih => rw [List.foldl_cons, List.foldl_cons, ih, examine_state]

/-- The loop empties the histories of candidates and changes nothing else of the state. -/
theorem scan_state_eq :
    (evaluator.scan now serving state records).state =
      { state with
        neighbours := (records.filter (isCandidate state)).foldl (evaluator.emptied now)
          state.neighbours } := by
  rw [scan_eq_foldl, foldl_examine_state]

/-- A choice names a candidate, and its score is above the threshold. -/
structure Grounded (serving : α) (state : UeState) (records : List NeighbourRecord)
    (chosen : CellId × α) : Prop where
  listed : ∃ record ∈ records, isCandidate state record = true ∧ record.cell = chosen.1
  above : evaluator.abstentionThreshold < chosen.2
  scored : ∃ record, evaluator.score serving record = .ok chosen.2

theorem scan_choice : ∀ chosen ∈ (evaluator.scan now serving state records).choice,
    evaluator.Grounded serving state records chosen := by
  apply evaluator.scan_induction (motive := fun found => ∀ chosen ∈ found.choice,
    evaluator.Grounded serving state records chosen) nofun
  rintro found grounded record listed candidate next
    (_ | _ | _ | ⟨_, seen, score, scored, above, _⟩)
  case takes =>
    rintro chosen ⟨⟩
    exact ⟨⟨record, listed, candidate, rfl⟩, above, seen, scored⟩
  all_goals exact grounded

/-- A warning tells of a record that could not be scored. -/
theorem scan_warnings : ∀ warning ∈ (evaluator.scan now serving state records).warnings,
    ∃ ue cell fault, warning = .notScored ue cell fault ∧
      ∃ record, evaluator.score serving record = .error fault := by
  apply evaluator.scan_induction (motive := fun found => ∀ warning ∈ found.warnings,
    ∃ ue cell fault, warning = .notScored ue cell fault ∧
      ∃ record, evaluator.score serving record = .error fault) nofun
  rintro found told record - - next (_ | _ | ⟨_, seen, fault, failed⟩ | _)
  case warns =>
    rw [List.forall_mem_append]
    exact ⟨told, List.forall_mem_singleton.mpr ⟨_, _, fault, rfl, seen, failed⟩⟩
  all_goals exact told

end Run

/-! ## Histories that are emptied -/

section Emptied

variable {now : Instant}

omit [Scalar α] in
/-- Only the stale window has a part in which histories are emptied. -/
theorem emptied_congr {other : Evaluator α} (window : other.staleWindow = evaluator.staleWindow) :
    other.emptied now = evaluator.emptied now := by
  funext neighbours record
  exact if_congr (by rw [Usable, Usable, window]) rfl rfl

/-- One of the records is of this cell and cannot be used. -/
def Discards (now : Instant) (records : List NeighbourRecord) (cell : CellId) : Prop :=
  ∃ record ∈ records, record.cell = cell ∧ ¬evaluator.Usable now record.lastUpdate record.rsrq

instance (records : List NeighbourRecord) (cell : CellId) :
    Decidable (evaluator.Discards now records cell) :=
  inferInstanceAs (Decidable (∃ record ∈ records, _ ∧ _))

omit [Scalar α] in
theorem discards_cons {first : NeighbourRecord} {rest : List NeighbourRecord} {cell : CellId} :
    evaluator.Discards now (first :: rest) cell ↔
      first.cell = cell ∧ ¬evaluator.Usable now first.lastUpdate first.rsrq ∨
        evaluator.Discards now rest cell := by
  simp only [Discards, List.mem_cons, or_and_right, exists_or, exists_eq_left]

omit [Scalar α] in
theorem get?_emptied (neighbours : Table CellId NeighbourRecord) (first : NeighbourRecord)
    (cell : CellId) :
    (evaluator.emptied now neighbours first).get? cell =
      (neighbours.get? cell).map fun record =>
        if first.cell = cell ∧ ¬evaluator.Usable now first.lastUpdate first.rsrq then
          record.resetHistory
        else record := by
  unfold emptied
  by_cases usable : evaluator.Usable now first.lastUpdate first.rsrq
  · simp [usable]
  · by_cases same : first.cell = cell
    · simp [usable, same]
    · simp [usable, same, Table.get?_modify_of_ne _ (Ne.symm same)]

omit [Scalar α] in
/-- Once all records were looked at, the neighbours whose cells they discard have lost
their histories. -/
theorem get?_foldl_emptied (neighbours : Table CellId NeighbourRecord)
    (records : List NeighbourRecord) (cell : CellId) :
    (records.foldl (evaluator.emptied now) neighbours).get? cell =
      (neighbours.get? cell).map fun record =>
        if evaluator.Discards now records cell then record.resetHistory else record := by
  induction records generalizing neighbours with
  | nil => simp [Discards]
  | cons first rest ih =>
      rw [List.foldl_cons, ih, get?_emptied, Option.map_map]
      apply Option.map_congr
      rintro record -
      simp only [Function.comp_apply, discards_cons]
      by_cases head : first.cell = cell ∧ ¬evaluator.Usable now first.lastUpdate first.rsrq
      · -- A history that is emptied twice is as empty as one that is emptied once.
        rw [if_pos head, if_pos (Or.inl head)]
        exact ite_self record.resetHistory
      · rw [if_neg head]
        exact if_congr (or_iff_right head).symm rfl rfl

omit [Scalar α] in
/-- Records under their own cells lose their histories one by one as if all were looked
at together. -/
theorem foldl_emptied_eq {state : UeState} (filed : state.Filed) :
    (state.snapshot.filter (isCandidate state)).foldl (evaluator.emptied now) state.neighbours =
      state.neighbours.map (evaluator.refresh now state) := by
  ext cell : 1
  rw [get?_foldl_emptied, Table.get?_map]
  apply Option.map_congr
  intro record known
  refine if_congr ?_ rfl rfl
  constructor
  · rintro ⟨other, member, rfl, unusable⟩
    obtain ⟨listed, candidate⟩ := List.mem_filter.mp member
    rw [filed.get?_of_mem listed] at known
    cases known
    exact ⟨candidate, unusable⟩
  · rintro ⟨candidate, unusable⟩
    have listed : record ∈ state.snapshot := Table.mem_values_iff.mpr ⟨cell, known⟩
    exact ⟨record, List.mem_filter.mpr ⟨listed, candidate⟩, filed cell record known, unusable⟩

end Emptied

/-! ## Records under their own cells -/

section Filed

variable {now : Instant} {serving : α}

/-- Candidates of different cells that nothing has touched yet are looked at one by one
as if each came first. -/
theorem foldl_examine {records : List NeighbourRecord} {found : Selection α}
    (distinct : (records.map NeighbourRecord.cell).Nodup)
    (untouched : ∀ record ∈ records, evaluator.Usable now record.lastUpdate record.rsrq →
      found.state.neighbours.get? record.cell = some record) :
    let scored := records.map fun record => (record.cell, evaluator.scored? now serving record)
    records.foldl (fun found record => evaluator.examine now serving found (.ofRecord record))
        found =
      { state :=
          { found.state with
            neighbours := records.foldl (evaluator.emptied now) found.state.neighbours }
        choice := scored.foldl evaluator.prefer found.choice
        warnings := found.warnings ++ scored.filterMap (warning? found.state.ue) } := by
  induction records generalizing found with
  | nil => simp
  | cons record rest ih =>
      rw [List.map_cons, List.nodup_cons] at distinct
      rw [List.forall_mem_cons] at untouched
      have step := evaluator.examine_ofRecord now serving found untouched.1
      have later : ∀ other ∈ rest, evaluator.Usable now other.lastUpdate other.rsrq →
          (evaluator.emptied now found.state.neighbours record).get? other.cell = some other := by
        intro other member usable
        have apart : record.cell ≠ other.cell := fun same =>
          distinct.1 (same ▸ List.mem_map_of_mem member)
        rw [get?_emptied, untouched.2 other member usable]
        exact congrArg some (if_neg fun both => apart both.1)
      simp only [List.foldl_cons, step]
      rw [ih distinct.2 later]
      simp only [List.map_cons, List.foldl_cons, List.filterMap_cons, List.append_assoc]
      cases warning? found.state.ue (record.cell, evaluator.scored? now serving record) <;> rfl

/-- Over records under their own cells, the loop ends with what can be read off the
records at the start. -/
theorem scan_snapshot {state : UeState} (filed : state.Filed) :
    evaluator.scan now serving state state.snapshot =
      { state := { state with neighbours := state.neighbours.map (evaluator.refresh now state) }
        choice := (evaluator.candidates now serving state state.snapshot).foldl evaluator.prefer
          none
        warnings := (evaluator.candidates now serving state state.snapshot).filterMap
          (warning? state.ue) } := by
  rw [scan_eq_foldl, foldl_examine, foldl_emptied_eq evaluator filed]
  · rfl
  · exact filed.nodup_cells.sublist (List.filter_sublist.map _)
  · intro record member _
    exact filed.get?_of_mem (List.mem_filter.mp member).1

end Filed

end Handover.Inference.Evaluator
