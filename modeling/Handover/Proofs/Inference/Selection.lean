import Handover.Proofs.Choice
import Handover.Proofs.Inference.Scan

/-!
# What an evaluation writes and chooses

An evaluation adds the sample of the serving cell and resets the histories of
the neighbours that fade; it writes nothing else.  It chooses among the other
neighbours that the terminal knows, so the reserved cell is never chosen as long
as no result was stored for it.
-/

namespace Handover

/-- No neighbour of the terminal goes by the reserved cell number. -/
def UeState.Named (state : UeState) : Prop :=
  ∀ record ∈ state.snapshot, record.cell ≠ .none

namespace UeState

theorem named_fresh (ue : UeId) (historyLength : Nat) : (fresh ue historyLength).Named := by
  intro record member
  cases member

theorem Named.updateNeighbour {state : UeState} (named : state.Named) {cell : CellId}
    (proper : cell ≠ .none) (rsrp rsrq : Level) (time : Instant) :
    (state.updateNeighbour cell rsrp rsrq time).Named := by
  intro record member
  rcases Table.mem_values_of_insert member with rfl | old
  · change (state.recordOf cell rsrp rsrq time).cell ≠ .none
    unfold recordOf
    cases found : state.neighbours.get? cell with
    | none => exact proper
    | some known => exact named known (Table.mem_values_iff.mpr ⟨cell, found⟩)
  · exact named record old

theorem Named.resetNeighbourHistory {state : UeState} (named : state.Named) (cell : CellId) :
    (state.resetNeighbourHistory cell).Named := by
  intro record member
  rcases Table.mem_values_of_modify member with old | ⟨old, oldMember, rfl⟩
  · exact named record old
  · exact named old oldMember

theorem Named.setServing {state : UeState} (named : state.Named) (cell : CellId)
    (since : Instant) : (state.setServing cell since).Named := by
  have renamed : Named { state with
      servingCell := some cell
      servingSince := some since
      servingHistory := state.servingHistory.clear } := named
  exact renamed.resetNeighbourHistory cell

end UeState

namespace Inference.Evaluator

variable {α : Type} (evaluator : Evaluator α)

section Computed

variable [Scalar α] {state : UeState} {now : Instant} {servingRsrq : Level}

/-- Without a link quality of the serving cell only its sample is added. -/
theorem selectTarget_of_error {fault : Fuzzy.FuzzyError α} (failed : evaluator.servingQuality
      (samplesOf (state.servingHistory.push servingRsrq)) = .error fault) :
    evaluator.selectTarget state now servingRsrq =
      ⟨observe state servingRsrq, none, [.servingUnavailable state.ue fault]⟩ := by
  simp only [selectTarget, observe, failed]

/-- With a link quality of the serving cell the loop goes through the neighbours. -/
theorem selectTarget_of_ok {quality : α} (computed : evaluator.servingQuality
      (samplesOf (state.servingHistory.push servingRsrq)) = .ok quality) :
    evaluator.selectTarget state now servingRsrq =
      evaluator.scan now quality (observe state servingRsrq)
        (observe state servingRsrq).snapshot := by
  simp only [selectTarget, observe, computed]

/-- Over records under their own cells, the loop does what the records say before it
begins. -/
theorem selectTarget_eq (filed : state.Filed) {quality : α} (computed : evaluator.servingQuality
      (samplesOf (state.servingHistory.push servingRsrq)) = .ok quality) :
    evaluator.selectTarget state now servingRsrq =
      { state :=
          { observe state servingRsrq with
            neighbours := state.neighbours.map (evaluator.refresh now state) }
        choice :=
          (evaluator.candidates now quality state state.snapshot).foldl evaluator.prefer none
        warnings := (evaluator.candidates now quality state state.snapshot).filterMap
          (warning? state.ue) } := by
  have observed : (observe state servingRsrq).Filed := filed
  rw [evaluator.selectTarget_of_ok computed]
  exact evaluator.scan_snapshot observed

end Computed

section Writes

variable (state : UeState) (now : Instant)

/-- The neighbour is not the serving cell, and its last result has no quality or
is too old. -/
def Fades (record : NeighbourRecord) : Prop :=
  some record.cell ≠ state.servingCell ∧
    (record.rsrq = 0 ∨ evaluator.staleWindow < now.since record.lastUpdate)

instance (record : NeighbourRecord) : Decidable (evaluator.Fades state now record) :=
  inferInstanceAs (Decidable (_ ∧ _))

theorem refresh_eq (record : NeighbourRecord) :
    evaluator.refresh now state record =
      if evaluator.Fades state now record then record.resetHistory else record := by
  have fades : (isCandidate state record = true ∧
      ¬evaluator.Usable now record.lastUpdate record.rsrq) ↔
        evaluator.Fades state now record := by
    rw [isCandidate, bne_iff_ne, Usable, not_and_or, not_not, Nat.not_le, Fades]
  rw [refresh]
  exact if_congr fades rfl rfl

variable [Scalar α] (servingRsrq : Level)

/-- An evaluation writes the sample of the serving cell and the histories of
neighbours, and nothing else. -/
theorem selectTarget_state :
    ∃ neighbours, (evaluator.selectTarget state now servingRsrq).state =
      { state with
        servingHistory := state.servingHistory.push servingRsrq
        neighbours := neighbours } := by
  simp only [selectTarget]
  split
  · exact ⟨state.neighbours, rfl⟩
  · exact ⟨_, evaluator.scan_state_eq⟩

@[simp]
theorem selectTarget_outstanding :
    (evaluator.selectTarget state now servingRsrq).state.outstanding = state.outstanding := by
  rcases evaluator.selectTarget_state state now servingRsrq with ⟨neighbours, written⟩
  rw [written]

@[simp]
theorem selectTarget_pendingTarget :
    (evaluator.selectTarget state now servingRsrq).state.pendingTarget =
      state.pendingTarget := by
  rcases evaluator.selectTarget_state state now servingRsrq with ⟨neighbours, written⟩
  rw [written]

@[simp]
theorem selectTarget_servingCell :
    (evaluator.selectTarget state now servingRsrq).state.servingCell = state.servingCell := by
  rcases evaluator.selectTarget_state state now servingRsrq with ⟨neighbours, written⟩
  rw [written]

@[simp]
theorem selectTarget_servingSince :
    (evaluator.selectTarget state now servingRsrq).state.servingSince = state.servingSince := by
  rcases evaluator.selectTarget_state state now servingRsrq with ⟨neighbours, written⟩
  rw [written]

@[simp]
theorem selectTarget_servingHistory :
    (evaluator.selectTarget state now servingRsrq).state.servingHistory =
      state.servingHistory.push servingRsrq := by
  rcases evaluator.selectTarget_state state now servingRsrq with ⟨neighbours, written⟩
  rw [written]

@[simp]
theorem selectTarget_historyLength :
    (evaluator.selectTarget state now servingRsrq).state.historyLength = state.historyLength := by
  rcases evaluator.selectTarget_state state now servingRsrq with ⟨neighbours, written⟩
  rw [written]

/-- The neighbours that fade at an evaluation, if the link quality of the serving
cell can be computed; else there are none. -/
def faded : List CellId :=
  match evaluator.servingQuality (samplesOf (state.servingHistory.push servingRsrq)) with
  | .error _ => []
  | .ok _ => (state.snapshot.filter fun record => evaluator.Fades state now record).map
      NeighbourRecord.cell

variable {state}

theorem mem_faded {quality : α} (computed : evaluator.servingQuality
      (samplesOf (state.servingHistory.push servingRsrq)) = .ok quality)
    (filed : state.Filed) {cell : CellId} {record : NeighbourRecord}
    (known : state.neighbours.get? cell = some record) :
    cell ∈ evaluator.faded state now servingRsrq ↔ evaluator.Fades state now record := by
  simp only [faded, computed, List.mem_map, List.mem_filter, decide_eq_true_eq]
  constructor
  · rintro ⟨other, ⟨member, fades⟩, rfl⟩
    rw [filed.get?_of_mem member] at known
    cases known
    exact fades
  · intro fades
    exact ⟨record, ⟨Table.mem_values_iff.mpr ⟨cell, known⟩, fades⟩, filed cell record known⟩

/-- An evaluation resets the histories of the neighbours that fade. -/
theorem selectTarget_get? (filed : state.Filed) (cell : CellId) :
    (evaluator.selectTarget state now servingRsrq).state.neighbours.get? cell =
      (state.neighbours.get? cell).map fun record =>
        if cell ∈ evaluator.faded state now servingRsrq then record.resetHistory else record := by
  cases computed : evaluator.servingQuality
      (samplesOf (state.servingHistory.push servingRsrq)) with
  | error fault =>
      simp [faded, evaluator.selectTarget_of_error computed, computed, observe]
  | ok quality =>
      rw [evaluator.selectTarget_eq filed computed, Table.get?_map]
      cases known : state.neighbours.get? cell with
      | none => rfl
      | some record =>
          rw [Option.map_some, Option.map_some, refresh_eq]
          congr 1
          exact if_congr (evaluator.mem_faded now servingRsrq computed filed known).symm rfl rfl

theorem selectTarget_filed (filed : state.Filed) :
    (evaluator.selectTarget state now servingRsrq).state.Filed := by
  intro cell record found
  rw [evaluator.selectTarget_get? now servingRsrq filed] at found
  rcases Option.map_eq_some_iff.mp found with ⟨old, known, rfl⟩
  split <;> exact filed cell old known

end Writes

variable [Scalar α]

theorem selectTarget_named {state : UeState} (named : state.Named) (now : Instant)
    (servingRsrq : Level) : (evaluator.selectTarget state now servingRsrq).state.Named := by
  simp only [selectTarget]
  split
  · exact named
  · exact evaluator.scan_state (motive := UeState.Named) named fun _ cell kept =>
      kept.resetNeighbourHistory cell

/-! ## Neighbours that qualify -/

/-- The score of a record when the serving cell is seen with a further sample. -/
def scoreBeside (state : UeState) (servingRsrq : Level) (record : NeighbourRecord) :
    Except (Fuzzy.FuzzyError α) α := do
  let serving ← evaluator.servingQuality (samplesOf (state.servingHistory.push servingRsrq))
  evaluator.score serving record

/-- There is a score, and it lies above the threshold. -/
def Exceeds : Except (Fuzzy.FuzzyError α) α → Prop
  | .ok score => evaluator.abstentionThreshold < score
  | .error _ => False

instance : (result : Except (Fuzzy.FuzzyError α) α) → Decidable (evaluator.Exceeds result)
  | .ok score => inferInstanceAs (Decidable (evaluator.abstentionThreshold < score))
  | .error _ => inferInstanceAs (Decidable False)

/-- A record of another cell than the serving one, usable and with a history,
that scores above the threshold. -/
def Qualifies (state : UeState) (now : Instant) (servingRsrq : Level)
    (record : NeighbourRecord) : Prop :=
  some record.cell ≠ state.servingCell ∧ evaluator.Usable now record.lastUpdate record.rsrq ∧
    record.history.isEmpty = false ∧
    evaluator.Exceeds (evaluator.scoreBeside state servingRsrq record)

instance (state : UeState) (now : Instant) (servingRsrq : Level) (record : NeighbourRecord) :
    Decidable (evaluator.Qualifies state now servingRsrq record) :=
  inferInstanceAs (Decidable (_ ∧ _ ∧ _ ∧ _))

theorem scored?_eq_some {now : Instant} {serving : α} {record : NeighbourRecord}
    {result : Except (Fuzzy.FuzzyError α) α} :
    evaluator.scored? now serving record = some result ↔
      (evaluator.Usable now record.lastUpdate record.rsrq ∧ record.history.isEmpty = false) ∧
        evaluator.score serving record = result := by
  unfold scored?
  split
  · next both => rw [Option.some_inj, and_iff_right both]
  · next neither => exact ⟨nofun, fun ⟨both, _⟩ => absurd both neither⟩

/-- A candidate either leaves the choice alone or becomes the choice by a score
above the threshold. -/
theorem prefer_cases (choice : Option (CellId × α))
    (candidate : CellId × Option (Except (Fuzzy.FuzzyError α) α)) :
    evaluator.prefer choice candidate = choice ∨
      ∃ chosen, (candidate = (chosen.1, some (.ok chosen.2)) ∧ evaluator.Exceeds (.ok chosen.2)) ∧
        evaluator.prefer choice candidate = some chosen := by
  rcases candidate with ⟨cell, result⟩
  unfold prefer
  split
  · next score scored =>
    dsimp only at scored ⊢
    subst scored
    split
    · next above =>
      split
      · exact .inr ⟨(cell, score), ⟨rfl, above⟩, rfl⟩
      · split
        · exact .inr ⟨(cell, score), ⟨rfl, above⟩, rfl⟩
        · exact .inl rfl
    · exact .inl rfl
  · exact .inl rfl

theorem prefer_isSome (choice : Option (CellId × α))
    (candidate : CellId × Option (Except (Fuzzy.FuzzyError α) α))
    (made : choice.isSome = true) : (evaluator.prefer choice candidate).isSome = true := by
  rcases evaluator.prefer_cases choice candidate with kept | ⟨chosen, _, taken⟩
  · rw [kept]
    exact made
  · rw [taken]
    rfl

/-- A candidate above the threshold is taken unless there is a choice already. -/
theorem prefer_isSome_of_exceeds (choice : Option (CellId × α)) (cell : CellId) {score : α}
    (above : evaluator.Exceeds (.ok score)) :
    (evaluator.prefer choice (cell, some (.ok score))).isSome = true := by
  cases choice with
  | some made => exact evaluator.prefer_isSome _ _ rfl
  | none =>
      unfold prefer
      exact congrArg Option.isSome (if_pos above)

section Choice

variable {state : UeState} {now : Instant} {servingRsrq : Level}

theorem scoreBeside_of_ok {quality : α} (computed : evaluator.servingQuality
      (samplesOf (state.servingHistory.push servingRsrq)) = .ok quality)
    (record : NeighbourRecord) :
    evaluator.scoreBeside state servingRsrq record = evaluator.score quality record :=
  congrArg (· >>= _) computed

theorem selectTarget_choice_of_ok (filed : state.Filed) {quality : α}
    (computed : evaluator.servingQuality
      (samplesOf (state.servingHistory.push servingRsrq)) = .ok quality) :
    (evaluator.selectTarget state now servingRsrq).choice =
      (evaluator.candidates now quality state state.snapshot).foldl evaluator.prefer none := by
  rw [evaluator.selectTarget_eq filed computed]

/-- A chosen cell is that of a neighbour that qualifies. -/
theorem selectTarget_qualifies (filed : state.Filed) {chosen : CellId × α}
    (picked : (evaluator.selectTarget state now servingRsrq).choice = some chosen) :
    ∃ record ∈ state.snapshot, evaluator.Qualifies state now servingRsrq record ∧
      record.cell = chosen.1 := by
  cases computed : evaluator.servingQuality
      (samplesOf (state.servingHistory.push servingRsrq)) with
  | error error =>
      rw [evaluator.selectTarget_of_error computed] at picked
      cases picked
  | ok quality =>
      rw [evaluator.selectTarget_choice_of_ok filed computed] at picked
      rcases exists_offered_of_foldl evaluator.prefer_cases picked with ⟨_, member, rfl, above⟩
      obtain ⟨record, kept, same⟩ := List.mem_map.mp member
      obtain ⟨known, distinct⟩ := List.mem_filter.mp kept
      obtain ⟨named, scored⟩ := Prod.mk.inj same
      obtain ⟨⟨usable, traced⟩, result⟩ := evaluator.scored?_eq_some.mp scored
      refine ⟨record, known, ⟨bne_iff_ne.mp distinct, usable, traced, ?_⟩, named⟩
      rw [evaluator.scoreBeside_of_ok computed, result]
      exact above

/-- A neighbour that qualifies makes for a choice. -/
theorem selectTarget_isSome (filed : state.Filed) {record : NeighbourRecord}
    (known : record ∈ state.snapshot)
    (qualifies : evaluator.Qualifies state now servingRsrq record) :
    (evaluator.selectTarget state now servingRsrq).choice.isSome = true := by
  rcases qualifies with ⟨distinct, usable, traced, above⟩
  cases computed : evaluator.servingQuality
      (samplesOf (state.servingHistory.push servingRsrq)) with
  | error error =>
      rw [scoreBeside, computed] at above
      exact above.elim
  | ok quality =>
      rw [evaluator.scoreBeside_of_ok computed] at above
      cases result : evaluator.score quality record with
      | error error =>
          rw [result] at above
          exact above.elim
      | ok score =>
          rw [result] at above
          rw [evaluator.selectTarget_choice_of_ok filed computed]
          have candidate : isCandidate state record = true := bne_iff_ne.mpr distinct
          apply isSome_foldl_of_mem evaluator.prefer_isSome
            (List.mem_map_of_mem (List.mem_filter.mpr ⟨known, candidate⟩))
          intro choice
          rw [evaluator.scored?_eq_some.mpr ⟨⟨usable, traced⟩, result⟩]
          exact evaluator.prefer_isSome_of_exceeds choice record.cell above

/-- What is chosen is a neighbour, with a score above the threshold. -/
theorem selectTarget_grounded {chosen : CellId × α}
    (picked : (evaluator.selectTarget state now servingRsrq).choice = some chosen) :
    ∃ quality, evaluator.Grounded quality state state.snapshot chosen := by
  simp only [selectTarget] at picked
  split at picked
  · cases picked
  · have grounded := evaluator.scan_choice chosen picked
    exact ⟨_, grounded.listed, grounded.above, grounded.scored⟩

end Choice

/-- A chosen cell is another one than the serving cell, and its record shows a
quality other than zero. -/
theorem selectTarget_shows {state : UeState} (filed : state.Filed) {now : Instant}
    {servingRsrq : Level} {cell : CellId} {score : α}
    (chosen : (evaluator.selectTarget state now servingRsrq).choice = some (cell, score)) :
    some cell ≠ state.servingCell ∧ state.Shows cell := by
  rcases evaluator.selectTarget_qualifies filed chosen with ⟨record, known, qualifies, rfl⟩
  exact ⟨qualifies.1, filed.shows known qualifies.2.1.1⟩

/-- The reserved cell is not chosen. -/
theorem selectTarget_ne_none {state : UeState} (named : state.Named) {now : Instant}
    {servingRsrq : Level} {cell : CellId} {score : α}
    (chosen : (evaluator.selectTarget state now servingRsrq).choice = some (cell, score)) :
    cell ≠ .none := by
  obtain ⟨_, grounded⟩ := evaluator.selectTarget_grounded chosen
  rcases grounded.listed with ⟨record, known, _, rfl⟩
  exact named record known

end Inference.Evaluator

end Handover
