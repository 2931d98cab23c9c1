import Handover.Proofs.Inference.Selection
import Handover.Proofs.Numeric.Comparison
import Handover.Proofs.Success

/-!
# The neighbour that leads

An evaluation chooses the neighbour that qualifies with the greatest score, and among
equal scores the one with the lowest cell number.  The candidates are visited by
ascending cell number, whatever the order in which the records are kept, so the first
of the greatest scores is that of the lowest cell.  A higher threshold leaves the
neighbour that leads in place or excludes all of them.
-/

namespace Handover.Inference.Evaluator

open Fuzzy

variable {α : Type} [Scalar α] (evaluator : Evaluator α)

/-! ## One pass over scored candidates -/

section Pass

/-- One of the candidates is this cell with this score, which exceeds the threshold. -/
def Offered (candidates : List (CellId × Option (Except (FuzzyError α) α))) (cell : CellId)
    (score : α) : Prop :=
  (cell, some (.ok score)) ∈ candidates ∧ evaluator.abstentionThreshold < score

/-- An offer that no other one beats, by its score or by a lower cell. -/
structure Heads (candidates : List (CellId × Option (Except (FuzzyError α) α))) (cell : CellId)
    (score : α) : Prop where
  offered : evaluator.Offered candidates cell score
  greatest : ∀ other rival, evaluator.Offered candidates other rival → ¬score < rival
  lowest : ∀ other rival, evaluator.Offered candidates other rival → ¬rival < score →
    cell.value ≤ other.value

/-- The choice heads the candidates, if there is any offer. -/
def IsBest (candidates : List (CellId × Option (Except (FuzzyError α) α))) :
    Option (CellId × α) → Prop
  | none => ∀ cell score, ¬evaluator.Offered candidates cell score
  | some (cell, score) => evaluator.Heads candidates cell score

variable {evaluator} {candidates : List (CellId × Option (Except (FuzzyError α) α))}
  {cell : CellId} {score : α}

theorem offered_concat {candidate : CellId × Option (Except (FuzzyError α) α)} :
    evaluator.Offered (candidates ++ [candidate]) cell score ↔
      evaluator.Offered candidates cell score ∨
        (cell, some (.ok score)) = candidate ∧ evaluator.abstentionThreshold < score := by
  rw [Offered, Offered, List.mem_append, List.mem_singleton, or_and_right]

theorem IsBest.congr {others : List (CellId × Option (Except (FuzzyError α) α))}
    (same : ∀ cell score,
      evaluator.Offered others cell score ↔ evaluator.Offered candidates cell score)
    {choice : Option (CellId × α)} (best : evaluator.IsBest candidates choice) :
    evaluator.IsBest others choice := by
  cases choice with
  | none => exact fun cell score offered => best cell score ((same cell score).mp offered)
  | some chosen =>
      exact ⟨(same _ _).mpr best.offered,
        fun other rival offered => best.greatest other rival ((same other rival).mp offered),
        fun other rival offered => best.lowest other rival ((same other rival).mp offered)⟩

/-! ### One more candidate -/

theorem prefer_of_not_exceeds (choice : Option (CellId × α))
    {candidate : CellId × Option (Except (FuzzyError α) α)}
    (silent : ∀ score, candidate.2 = some (.ok score) → ¬evaluator.abstentionThreshold < score) :
    evaluator.prefer choice candidate = choice := by
  unfold prefer
  split
  · next score scored => exact if_neg (silent score scored)
  · rfl

theorem prefer_none (cell : CellId) (above : evaluator.abstentionThreshold < score) :
    evaluator.prefer none (cell, some (.ok score)) = some (cell, score) :=
  if_pos above

theorem prefer_some (kept cell : CellId) (most : α)
    (above : evaluator.abstentionThreshold < score) :
    evaluator.prefer (some (kept, most)) (cell, some (.ok score)) =
      if most < score then some (cell, score) else some (kept, most) :=
  if_pos above

theorem Heads.concat (heads : evaluator.Heads candidates cell score) {other : CellId} {rival : α}
    (notLess : ¬score < rival) (higher : cell.value < other.value) :
    evaluator.Heads (candidates ++ [(other, some (.ok rival))]) cell score where
  offered := offered_concat.mpr (.inl heads.offered)
  greatest third further offered := by
    rcases offered_concat.mp offered with old | ⟨same, _⟩
    · exact heads.greatest third further old
    · cases same
      exact notLess
  lowest third further offered level := by
    rcases offered_concat.mp offered with old | ⟨same, _⟩
    · exact heads.lowest third further old level
    · cases same
      exact UInt16.le_of_lt higher

variable [LawfulOrder α]

/-- An offer heads the candidates that it follows if it beats all of them. -/
theorem heads_concat (above : evaluator.abstentionThreshold < score)
    (beats : ∀ other rival, evaluator.Offered candidates other rival → rival < score) :
    evaluator.Heads (candidates ++ [(cell, some (.ok score))]) cell score where
  offered := offered_concat.mpr (.inr ⟨rfl, above⟩)
  greatest other rival offered := by
    rcases offered_concat.mp offered with old | ⟨same, _⟩
    · exact LawfulOrder.not_lt_of_lt (beats other rival old)
    · cases same
      exact LawfulOrder.lt_irrefl score
  lowest other rival offered level := by
    rcases offered_concat.mp offered with old | ⟨same, _⟩
    · exact absurd (beats other rival old) level
    · cases same
      exact UInt16.le_refl _

/-- A score above the one that heads is above all others. -/
theorem Heads.lt_of_lt (heads : evaluator.Heads candidates cell score) {better : α}
    (less : score < better) {other : CellId} {rival : α}
    (offered : evaluator.Offered candidates other rival) : rival < better :=
  have number := (LawfulOrder.numbers_of_lt offered.2).2
  (LawfulOrder.lt_or_lt number less).resolve_left (heads.greatest other rival offered)

/-- Seeing one more candidate, of a higher cell, keeps the choice the best. -/
theorem IsBest.prefer {choice : Option (CellId × α)} (best : evaluator.IsBest candidates choice)
    {candidate : CellId × Option (Except (FuzzyError α) α)}
    (higher : ∀ earlier ∈ candidates, earlier.1.value < candidate.1.value) :
    evaluator.IsBest (candidates ++ [candidate]) (evaluator.prefer choice candidate) := by
  obtain ⟨cell, result⟩ := candidate
  by_cases offers : ∃ score, result = some (.ok score) ∧ evaluator.abstentionThreshold < score
  · obtain ⟨score, rfl, above⟩ := offers
    cases choice with
    | none =>
        rw [prefer_none cell above]
        exact heads_concat above fun other rival offered => absurd offered (best other rival)
    | some chosen =>
        obtain ⟨kept, most⟩ := chosen
        rw [prefer_some kept cell most above]
        split
        · next less => exact heads_concat above fun _ _ => Heads.lt_of_lt best less
        · next notLess => exact Heads.concat best notLess (higher _ best.offered.1)
  · have silent (score : α) (scored : result = some (.ok score)) :
        ¬evaluator.abstentionThreshold < score := fun above => offers ⟨score, scored, above⟩
    rw [prefer_of_not_exceeds choice silent]
    refine best.congr fun other rival => ?_
    rw [offered_concat, or_iff_left]
    rintro ⟨same, above⟩
    exact silent rival (Prod.mk.inj same).2.symm above

/-- A pass over candidates by ascending cell ends with the best of them. -/
theorem isBest_foldl
    (ascending : candidates.Pairwise fun first second => first.1.value < second.1.value) :
    evaluator.IsBest candidates (candidates.foldl evaluator.prefer none) := by
  induction candidates using List.reverseRecOn with
  | nil => exact fun cell score offered => nomatch offered.1
  | append_singleton rest candidate ih =>
      rw [List.pairwise_append] at ascending
      rw [List.foldl_append]
      refine (ih ascending.1).prefer fun earlier member => ?_
      exact ascending.2.2 earlier member candidate List.mem_cons_self

end Pass

/-! ## The neighbour with the greatest score -/

section Leader

/-- The terminal knows a record that qualifies with this score. -/
structure Earns (state : UeState) (now : Instant) (servingRsrq : Level) (record : NeighbourRecord)
    (score : α) : Prop where
  known : record ∈ state.snapshot
  qualifies : evaluator.Qualifies state now servingRsrq record
  scored : evaluator.scoreBeside state servingRsrq record = .ok score

/-- No neighbour that qualifies has a greater score, or the same with a lower cell
number. -/
structure Leads (state : UeState) (now : Instant) (servingRsrq : Level) (record : NeighbourRecord)
    (score : α) : Prop extends evaluator.Earns state now servingRsrq record score where
  greatest : ∀ other rival, evaluator.Earns state now servingRsrq other rival → ¬score < rival
  lowest : ∀ other rival, evaluator.Earns state now servingRsrq other rival → ¬rival < score →
    record.cell.value ≤ other.cell.value

variable {state : UeState} {now : Instant} {servingRsrq : Level}

theorem exceeds_ok {score : α} :
    evaluator.Exceeds (.ok score) ↔ evaluator.abstentionThreshold < score :=
  Iff.rfl

theorem offered_candidates (now : Instant) {quality : α} (computed : evaluator.servingQuality
      (samplesOf (state.servingHistory.push servingRsrq)) = .ok quality) (cell : CellId)
    (score : α) :
    evaluator.Offered (evaluator.candidates now quality state state.snapshot) cell score ↔
      ∃ record, evaluator.Earns state now servingRsrq record score ∧ record.cell = cell := by
  constructor
  · rintro ⟨listed, above⟩
    obtain ⟨record, kept, same⟩ := List.mem_map.mp listed
    obtain ⟨known, distinct⟩ := List.mem_filter.mp kept
    obtain ⟨named, scored⟩ := Prod.mk.inj same
    obtain ⟨⟨usable, traced⟩, result⟩ := evaluator.scored?_eq_some.mp scored
    rw [← evaluator.scoreBeside_of_ok computed] at result
    refine ⟨record, ⟨known, ⟨bne_iff_ne.mp distinct, usable, traced, ?_⟩, result⟩, named⟩
    rw [result]
    exact above
  · rintro ⟨record, ⟨known, ⟨distinct, usable, traced, above⟩, scored⟩, rfl⟩
    rw [scored] at above
    rw [evaluator.scoreBeside_of_ok computed] at scored
    refine ⟨List.mem_map.mpr ⟨record, List.mem_filter.mpr ⟨known, bne_iff_ne.mpr distinct⟩, ?_⟩,
      above⟩
    rw [evaluator.scored?_eq_some.mpr ⟨⟨usable, traced⟩, scored⟩]

theorem ascending_candidates (filed : state.Filed) (now : Instant) (serving : α) :
    (evaluator.candidates now serving state state.snapshot).Pairwise fun first second =>
      first.1.value < second.1.value := by
  rw [candidates, List.pairwise_map]
  exact filed.ascending_cells.filter _

theorem selectTarget_choice_eq_none_iff (filed : state.Filed) :
    (evaluator.selectTarget state now servingRsrq).choice = none ↔
      ∀ record ∈ state.snapshot, ¬evaluator.Qualifies state now servingRsrq record := by
  constructor
  · intro abstains record known qualifies
    have chosen := evaluator.selectTarget_isSome filed known qualifies
    rw [abstains] at chosen
    cases chosen
  · intro nobody
    by_contra picked
    obtain ⟨chosen, picked⟩ := Option.ne_none_iff_exists'.mp picked
    obtain ⟨record, known, qualifies, _⟩ := evaluator.selectTarget_qualifies filed picked
    exact nobody record known qualifies

variable {evaluator}

/-- A single record leads. -/
theorem Leads.unique (filed : state.Filed) {record other : NeighbourRecord} {score rival : α}
    (first : evaluator.Leads state now servingRsrq record score)
    (second : evaluator.Leads state now servingRsrq other rival) :
    record = other ∧ score = rival := by
  have upward := first.lowest other rival second.toEarns (second.greatest record score first.toEarns)
  have downward := second.lowest record score first.toEarns
    (first.greatest other rival second.toEarns)
  have cells : record.cell = other.cell :=
    congrArg CellId.mk (UInt16.le_antisymm upward downward)
  have same := filed.get?_of_mem first.known
  rw [cells, filed.get?_of_mem second.known] at same
  cases same
  exact ⟨rfl, Except.ok.inj (first.scored.symm.trans second.scored)⟩

theorem exists_leads_of_heads {quality : α} (computed : evaluator.servingQuality
      (samplesOf (state.servingHistory.push servingRsrq)) = .ok quality) {cell : CellId}
    {score : α}
    (heads : evaluator.Heads (evaluator.candidates now quality state state.snapshot) cell score) :
    ∃ record, evaluator.Leads state now servingRsrq record score ∧ record.cell = cell := by
  have offers := evaluator.offered_candidates now computed
  obtain ⟨record, earns, rfl⟩ := (offers cell score).mp heads.offered
  refine ⟨record, ⟨earns, fun other rival earned => ?_, fun other rival earned => ?_⟩, rfl⟩
  · exact heads.greatest _ rival ((offers _ _).mpr ⟨other, earned, rfl⟩)
  · exact heads.lowest _ rival ((offers _ _).mpr ⟨other, earned, rfl⟩)

/-- The choice is the neighbour that leads, with its score. -/
theorem selectTarget_choice_eq_some_iff [LawfulOrder α] (filed : state.Filed) {cell : CellId}
    {score : α} :
    (evaluator.selectTarget state now servingRsrq).choice = some (cell, score) ↔
      ∃ record, evaluator.Leads state now servingRsrq record score ∧ record.cell = cell := by
  have leader : ∀ {cell score},
      (evaluator.selectTarget state now servingRsrq).choice = some (cell, score) →
        ∃ record, evaluator.Leads state now servingRsrq record score ∧ record.cell = cell := by
    intro cell score chosen
    cases computed : evaluator.servingQuality
        (samplesOf (state.servingHistory.push servingRsrq)) with
    | error fault =>
        rw [evaluator.selectTarget_of_error computed] at chosen
        cases chosen
    | ok quality =>
        have best : evaluator.IsBest _ _ :=
          isBest_foldl (evaluator.ascending_candidates filed now quality)
        rw [← evaluator.selectTarget_choice_of_ok filed computed, chosen] at best
        exact exists_leads_of_heads computed best
  refine ⟨leader, ?_⟩
  rintro ⟨record, leads, rfl⟩
  have made := evaluator.selectTarget_isSome filed leads.known leads.qualifies
  obtain ⟨⟨other, rival⟩, chosen⟩ := Option.isSome_iff_exists.mp made
  obtain ⟨second, leading, rfl⟩ := leader chosen
  obtain ⟨rfl, rfl⟩ := leads.unique filed leading
  exact chosen

/-! ## Other thresholds -/

/-- The evaluator with another threshold. -/
def withThreshold (evaluator : Evaluator α) (threshold : α) : Evaluator α :=
  { evaluator with abstentionThreshold := threshold }

theorem earns_withThreshold [LawfulOrder α] {higher : α}
    (raised : evaluator.abstentionThreshold ≤ higher) {record : NeighbourRecord} {score : α} :
    (evaluator.withThreshold higher).Earns state now servingRsrq record score ↔
      evaluator.Earns state now servingRsrq record score ∧ higher < score := by
  constructor
  · rintro ⟨known, ⟨distinct, usable, traced, above⟩, scored⟩
    rw [scored] at above
    have above : higher < score := above
    refine ⟨⟨known, ⟨distinct, usable, traced, ?_⟩, scored⟩, above⟩
    change evaluator.Exceeds ((evaluator.withThreshold higher).scoreBeside state servingRsrq record)
    rw [scored]
    exact LawfulOrder.lt_of_le_of_lt raised above
  · rintro ⟨⟨known, ⟨distinct, usable, traced, _⟩, scored⟩, above⟩
    refine ⟨known, ⟨distinct, usable, traced, ?_⟩, scored⟩
    change (evaluator.withThreshold higher).Exceeds (evaluator.scoreBeside state servingRsrq record)
    rw [scored]
    exact above

/-- Who leads above a higher threshold leads. -/
theorem Leads.of_withThreshold [LawfulOrder α] {higher : α}
    (raised : evaluator.abstentionThreshold ≤ higher) {record : NeighbourRecord} {score : α}
    (leads : (evaluator.withThreshold higher).Leads state now servingRsrq record score) :
    evaluator.Leads state now servingRsrq record score := by
  obtain ⟨earns, above⟩ := (earns_withThreshold raised).mp leads.toEarns
  refine ⟨earns, fun other rival earned more => ?_, fun other rival earned level => ?_⟩
  · have beyond := LawfulOrder.lt_trans above more
    exact leads.greatest other rival ((earns_withThreshold raised).mpr ⟨earned, beyond⟩) more
  · have scored := earned.qualifies.2.2.2
    rw [earned.scored] at scored
    have number := (LawfulOrder.numbers_of_lt (exceeds_ok evaluator |>.mp scored)).2
    have beyond := LawfulOrder.lt_of_lt_of_not_lt number above level
    exact leads.lowest other rival ((earns_withThreshold raised).mpr ⟨earned, beyond⟩) level

/-! ## Records in any order -/

/-- Records by ascending cell number. -/
def byCell (records : List NeighbourRecord) : List NeighbourRecord :=
  records.mergeSort fun first second => first.cell.value ≤ second.cell.value

/-- The choice among the records of a terminal that are listed in some order and sorted
first. -/
def chooseAmong (evaluator : Evaluator α) (state : UeState) (now : Instant) (servingRsrq : Level)
    (records : List NeighbourRecord) : Option (CellId × α) :=
  match evaluator.servingQuality (samplesOf (state.servingHistory.push servingRsrq)) with
  | .error _ => none
  | .ok serving =>
    (evaluator.scan now serving (observe state servingRsrq) (byCell records)).choice

theorem byCell_eq_snapshot (filed : state.Filed) {records : List NeighbourRecord}
    (listed : records.Perm state.snapshot) : byCell records = state.snapshot := by
  have sorted : (byCell records).Pairwise fun first second =>
      decide (first.cell.value ≤ second.cell.value) = true := by
    refine List.pairwise_mergeSort (fun first second third below above => ?_)
      (fun first second => ?_) records
    · simp only [decide_eq_true_eq] at below above ⊢
      exact UInt16.le_trans below above
    · simp only [Bool.or_eq_true, decide_eq_true_eq]
      exact UInt16.le_total _ _
  have ascending : state.snapshot.Pairwise fun first second =>
      decide (first.cell.value ≤ second.cell.value) = true :=
    filed.ascending_cells.imp fun below => decide_eq_true (UInt16.le_of_lt below)
  have same : (byCell records).Perm state.snapshot :=
    (List.mergeSort_perm records _).trans listed
  refine List.Perm.eq_of_pairwise (fun first second member known below above => ?_) sorted
    ascending same
  -- Records of one cell are the same record.
  have cells : first.cell = second.cell := congrArg CellId.mk
    (UInt16.le_antisymm (of_decide_eq_true below) (of_decide_eq_true above))
  have found := filed.get?_of_mem (same.mem_iff.mp member)
  rw [cells, filed.get?_of_mem known] at found
  exact (Option.some.inj found).symm

theorem chooseAmong_eq (filed : state.Filed) {records : List NeighbourRecord}
    (listed : records.Perm state.snapshot) :
    evaluator.chooseAmong state now servingRsrq records =
      (evaluator.selectTarget state now servingRsrq).choice := by
  rw [chooseAmong, byCell_eq_snapshot filed listed]
  cases computed : evaluator.servingQuality
      (samplesOf (state.servingHistory.push servingRsrq)) with
  | error fault => rw [evaluator.selectTarget_of_error computed]
  | ok quality =>
      rw [evaluator.selectTarget_of_ok computed]
      rfl

/-! ## The choice -/

theorem selectTarget_withThreshold [LawfulOrder α] (filed : state.Filed) {higher : α}
    (raised : evaluator.abstentionThreshold ≤ higher) :
    let choice := ((evaluator.withThreshold higher).selectTarget state now servingRsrq).choice
    choice = (evaluator.selectTarget state now servingRsrq).choice ∨ choice = none := by
  intro choice
  cases chosen : choice with
  | none => exact .inr rfl
  | some pair =>
      obtain ⟨record, leads, named⟩ := (selectTarget_choice_eq_some_iff filed).mp chosen
      have leading := leads.of_withThreshold raised
      exact .inl ((selectTarget_choice_eq_some_iff filed).mpr ⟨record, leading, named⟩).symm

/-- An evaluation abstains exactly if no neighbour qualifies, and else chooses the one
that leads, with its score; without a link quality of the serving cell it abstains.  The
order in which the records are kept does not matter, and a higher threshold changes the
choice to none at most. -/
theorem leader_selected [LawfulOrder α] (evaluator : Evaluator α) {state : UeState}
    (filed : state.Filed) (now : Instant) (servingRsrq : Level) :
    let choice := (evaluator.selectTarget state now servingRsrq).choice
    (choice = none ↔
      ∀ record ∈ state.snapshot, ¬evaluator.Qualifies state now servingRsrq record) ∧
      (∀ cell score, choice = some (cell, score) ↔
        ∃ record, evaluator.Leads state now servingRsrq record score ∧ record.cell = cell) ∧
      (∀ fault, evaluator.servingQuality (samplesOf (state.servingHistory.push servingRsrq)) =
        .error fault → choice = none) ∧
      (∀ records, records.Perm state.snapshot →
        evaluator.chooseAmong state now servingRsrq records = choice) ∧
      ∀ higher, evaluator.abstentionThreshold ≤ higher →
        let raised := ((evaluator.withThreshold higher).selectTarget state now servingRsrq).choice
        raised = choice ∨ raised = none := by
  intro choice
  refine ⟨evaluator.selectTarget_choice_eq_none_iff filed,
    fun cell score => selectTarget_choice_eq_some_iff filed, fun fault failed => ?_,
    fun records listed => chooseAmong_eq filed listed,
    fun higher raised => selectTarget_withThreshold filed raised⟩
  exact congrArg Selection.choice (evaluator.selectTarget_of_error failed)

end Leader

/-! ## A plain rule base -/

/-- A variable over a range, which is low at its lower end and high at its upper end. -/
def ramp (name : String) (low high : ℚ) : Variable (Extended ℚ) (Membership (Extended ℚ)) :=
  ⟨name, ⟨.number low, .number high, 2⟩,
    [⟨"LOW", .trapezoidal (.number low) (.number low) (.number low) (.number high)⟩,
      ⟨"HIGH", .trapezoidal (.number low) (.number high) (.number high) (.number high)⟩]⟩

/-- An output that is as high as one of the inputs. -/
def following (judged : String) (inputs : List (Variable (Extended ℚ) (Membership (Extended ℚ))))
    (output : String) : Definition (Extended ℚ) (Membership (Extended ℚ)) where
  inputs := inputs
  output := ramp output 0 1
  rules := [.ofPairs [(judged, "LOW")] "LOW", .ofPairs [(judged, "HIGH")] "HIGH"]

/-- Link qualities follow the predicted quality, and a handover is as desirable as the
link quality of the neighbour. -/
def plain : RuleBase (Extended ℚ) (Membership (Extended ℚ)) :=
  let link := following rsrqName [ramp rsrqName 0 34, ramp changeName (-4) 4] qualityName
  { servingQuality := link
    neighbourQuality := link
    trigger := following neighbourQualityName
      [ramp servingQualityName 0 1, ramp neighbourQualityName 0 1] triggerName }

theorem leader_selected_plain :
    let state := (((UeState.fresh ⟨7⟩ 6).updateNeighbour ⟨9⟩ 50 30 ⟨10⟩).updateNeighbour
      ⟨5⟩ 50 30 ⟨10⟩).updateNeighbour ⟨2⟩ 50 20 ⟨10⟩
    state.Filed ∧ ∃ evaluator, typeOne plain (.number (1 / 2)) 240000 = .ok evaluator ∧
      (evaluator.selectTarget state ⟨20⟩ 12).choice = some (⟨5⟩, .number (15 / 17)) ∧
      ∃ record, evaluator.Leads state ⟨20⟩ 12 record (.number (15 / 17)) ∧ record.cell = ⟨5⟩ := by
  intro state
  have filed : state.Filed :=
    (((UeState.filed_fresh _ _).updateNeighbour _ _ _ _).updateNeighbour _ _ _ _).updateNeighbour
      _ _ _ _
  have evaluated : (typeOne plain (.number (1 / 2)) 240000).toOption.any (fun evaluator =>
      (evaluator.selectTarget state ⟨20⟩ 12).choice = some (⟨5⟩, .number (15 / 17))) = true := by
    decide +kernel
  obtain ⟨evaluator, built, chosen⟩ := exists_of_any_toOption evaluated
  have chosen := of_decide_eq_true chosen
  exact ⟨filed, evaluator, built, chosen,
    ((leader_selected evaluator filed ⟨20⟩ 12).2.1 _ _).mp chosen⟩

end Handover.Inference.Evaluator
