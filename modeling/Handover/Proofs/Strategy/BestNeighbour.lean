import Handover.Proofs.Strategy.Target
import Mathlib.Data.List.Induction

/-!
# The first of the best neighbours

One pass over a report keeps the first result of greatest quality.  A result without
quality, one of quality zero and one for the serving cell leave the choice as it is, and so
does a result of the same quality as an earlier one, for the same cell or another.
-/

namespace Handover.Strategy.BestNeighbour

variable {α : Type} {serving : Option CellId} {results : List NeighbourResult}
  {result : NeighbourResult} {chosen offer : CellId × Level}

/-! ## One more result -/

theorem prefer_of_silent (silent : ∀ offer, ¬Offers serving result offer)
    (choice : Option (CellId × Level)) : prefer serving choice result = choice := by
  rcases prefer_cases serving choice result with kept | ⟨taken, offers, _⟩
  · exact kept
  · exact absurd offers (silent taken)

theorem prefer_none (offers : Offers serving result offer) :
    prefer serving none result = some offer := by
  have positive : 0 < offer.2 := UInt8.pos_iff_ne_zero.mpr offers.nonzero
  simp only [prefer, offers.rsrq, offers.cell]
  exact if_pos ⟨offers.distinct, positive⟩

theorem prefer_some (offers : Offers serving result offer) :
    prefer serving (some chosen) result =
      if chosen.2 < offer.2 then some offer else some chosen := by
  simp only [prefer, offers.rsrq, offers.cell, ne_eq, offers.distinct, not_false_iff, true_and]

theorem Offers.unique {other : CellId × Level} (offers : Offers serving result offer)
    (offersToo : Offers serving result other) : offer = other :=
  Prod.ext (offers.cell.symm.trans offersToo.cell)
    (Option.some.inj (offers.rsrq.symm.trans offersToo.rsrq))

/-! ## The first of the greatest -/

/-- What some result offers, where those before it offer less and those after it no
more. -/
def FirstBest (serving : Option CellId) (results : List NeighbourResult)
    (chosen : CellId × Level) : Prop :=
  ∃ before result after, results = before ++ result :: after ∧ Offers serving result chosen ∧
    (∀ earlier ∈ before, ∀ offer, Offers serving earlier offer → offer.2 < chosen.2) ∧
    ∀ later ∈ after, ∀ offer, Offers serving later offer → offer.2 ≤ chosen.2

namespace FirstBest

theorem le (first : FirstBest serving results chosen) (listed : result ∈ results)
    (offers : Offers serving result offer) : offer.2 ≤ chosen.2 := by
  obtain ⟨before, best, after, rfl, offersBest, less, notMore⟩ := first
  rcases List.mem_append.mp listed with earlier | rest
  · exact UInt8.le_of_lt (less result earlier offer offers)
  · rcases List.mem_cons.mp rest with rfl | later
    · rw [offers.unique offersBest]
      exact UInt8.le_refl _
    · exact notMore result later offer offers

theorem exists_offers (first : FirstBest serving results chosen) :
    ∃ result ∈ results, Offers serving result chosen := by
  obtain ⟨before, best, after, rfl, offers, _, _⟩ := first
  exact ⟨best, List.mem_append_right before List.mem_cons_self, offers⟩

/-- A result that offers no more does not change which one is the first. -/
theorem concat (first : FirstBest serving results chosen)
    (notMore : ∀ offer, Offers serving result offer → offer.2 ≤ chosen.2) :
    FirstBest serving (results ++ [result]) chosen := by
  obtain ⟨before, best, after, rfl, offers, less, notMoreAfter⟩ := first
  refine ⟨before, best, after ++ [result], ?_, offers, less, ?_⟩
  · rw [List.append_assoc, List.cons_append]
  · intro later listed
    rcases List.mem_append.mp listed with old | last
    · exact notMoreAfter later old
    · rw [List.mem_singleton.mp last]
      exact notMore

/-- A result that offers more than all before it is the first. -/
theorem of_less (offers : Offers serving result offer)
    (less : ∀ earlier ∈ results, ∀ other, Offers serving earlier other → other.2 < offer.2) :
    FirstBest serving (results ++ [result]) offer :=
  ⟨results, result, [], rfl, offers, less, nofun⟩

end FirstBest

/-- The choice is the first of the greatest offers, if there is any offer. -/
def IsFirstBest (serving : Option CellId) (results : List NeighbourResult) :
    Option (CellId × Level) → Prop
  | none => ∀ result ∈ results, ∀ offer, ¬Offers serving result offer
  | some chosen => FirstBest serving results chosen

/-- Seeing one more result keeps the choice the first of the greatest. -/
theorem IsFirstBest.prefer {choice : Option (CellId × Level)}
    (best : IsFirstBest serving results choice) (result : NeighbourResult) :
    IsFirstBest serving (results ++ [result]) (prefer serving choice result) := by
  -- Only a result that offers something can take the place of the choice.
  by_cases offered : ∃ offer, Offers serving result offer
  · obtain ⟨offer, offers⟩ := offered
    cases choice with
    | none =>
        rw [prefer_none offers]
        exact .of_less offers fun earlier listed other offersToo =>
          absurd offersToo (best earlier listed other)
    | some chosen =>
        rw [prefer_some offers]
        split
        · next more =>
          exact .of_less offers fun earlier listed other offersToo =>
            UInt8.lt_of_le_of_lt (FirstBest.le best listed offersToo) more
        · next notMore =>
          refine FirstBest.concat best fun other offersToo => ?_
          rw [← offers.unique offersToo]
          exact UInt8.not_lt.mp notMore
  · have silent (offer : CellId × Level) : ¬Offers serving result offer :=
      fun offers => offered ⟨offer, offers⟩
    rw [prefer_of_silent silent]
    cases choice with
    | none =>
        intro other listed
        rcases List.mem_append.mp listed with old | last
        · exact best other old
        · rw [List.mem_singleton.mp last]
          exact silent
    | some chosen =>
        exact FirstBest.concat best fun other offers => absurd offers (silent other)

/-- A pass over a report ends with the first of the greatest offers. -/
theorem isFirstBest_foldl (serving : Option CellId) (results : List NeighbourResult) :
    IsFirstBest serving results (results.foldl (BestNeighbour.prefer serving) none) := by
  -- The last result is the one that the pass sees last, so the induction appends.
  induction results using List.reverseRecOn with
  | nil => exact fun result listed => nomatch listed
  | append_singleton rest result ih =>
      rw [List.foldl_append]
      exact ih.prefer result

theorem IsFirstBest.isSome_iff {choice : Option (CellId × Level)}
    (best : IsFirstBest serving results choice) :
    choice.isSome ↔ ∃ result ∈ results, ∃ offer, Offers serving result offer := by
  cases choice with
  | none =>
      refine iff_of_false nofun ?_
      rintro ⟨result, listed, offer, offers⟩
      exact best result listed offer offers
  | some chosen =>
      obtain ⟨result, listed, offers⟩ := FirstBest.exists_offers best
      exact iff_of_true rfl ⟨result, listed, chosen, offers⟩

/-! ## Evaluations -/

/-- A report with results ends in a handover exactly if one of them has a quality other
than zero and is not for the serving cell.  The target is the cell of the first such result
of greatest quality, and nothing that is known of any terminal changes. -/
theorem decides_first_best {strategy : BestNeighbour} {id : MeasId}
    (tagged : strategy.event = some id) (ue : UeId) {report : Report}
    (nonempty : report.neighbours ≠ []) (store : Store) :
    let serving := (store.stateOf ue).servingCell
    let evaluation := strategy.evaluate (α := α) ue id report store
    ∃ target, evaluation.store = store ∧ evaluation.answer = .ok ⟨ue, target⟩ ∧
      (target.isSome ↔ ∃ result ∈ report.neighbours, ∃ offer, Offers serving result offer) ∧
      ∀ cell, target = some cell →
        ∃ level, FirstBest serving report.neighbours (cell, level) := by
  intro serving evaluation
  have best := isFirstBest_foldl serving report.neighbours
  have whole : evaluation = ⟨store,
      .ok ⟨ue, (report.neighbours.foldl (prefer serving) none).map Prod.fst⟩,
      report.neighbours.filterMap (warning? ue)⟩ := by
    simp only [evaluation, evaluate, ne_eq, tagged, not_true_eq_false, if_false,
      List.isEmpty_iff, nonempty, bind_servingCell, serving]
  refine ⟨_, congrArg Evaluation.store whole, congrArg Evaluation.answer whole, ?_, ?_⟩
  · rw [Option.isSome_map]
    exact best.isSome_iff
  · intro cell named
    obtain ⟨⟨_, level⟩, picked, rfl⟩ := Option.map_eq_some_iff.mp named
    rw [picked] at best
    exact ⟨level, best⟩

/-- Of two cells of the same quality the one reported first is chosen, although its number
is higher and it is reported once more.  The serving cell, a cell of quality zero and one
without quality are passed over. -/
theorem first_of_tied_results :
    let strategy : BestNeighbour := ⟨.zero, .zero, some ⟨1⟩⟩
    let store := (Store.empty 6).change ⟨7⟩ fun state => state.setServing ⟨2⟩ ⟨11⟩
    let report : Report := ⟨⟨20⟩, 40, 15,
      [⟨⟨4⟩, some 60, none⟩, ⟨⟨2⟩, some 60, some 34⟩, ⟨⟨6⟩, none, some 0⟩, ⟨⟨9⟩, none, some 12⟩,
        ⟨⟨9⟩, some 60, some 20⟩, ⟨⟨5⟩, some 60, some 20⟩, ⟨⟨9⟩, some 60, some 20⟩]⟩
    let evaluation := strategy.evaluate (α := Float) ⟨7⟩ ⟨1⟩ report store
    (∃ events, (⟨.zero, .zero, none⟩ : BestNeighbour).register (α := Float) .empty .shortest =
        ⟨strategy, events, .ok ()⟩) ∧
      strategy.event = some ⟨1⟩ ∧ report.neighbours ≠ [] ∧
      evaluation.store = store ∧ evaluation.answer = .ok ⟨⟨7⟩, some ⟨9⟩⟩ ∧
      ∃ level, FirstBest (some ⟨2⟩) report.neighbours (⟨9⟩, level) := by
  intro strategy store report evaluation
  have registered : (⟨.zero, .zero, none⟩ : BestNeighbour).register (α := Float) .empty
      .shortest = ⟨strategy, Configurator.empty.add (.neighbourBetter .zero .zero), .ok ()⟩ := rfl
  have tagged : strategy.event = some ⟨1⟩ := rfl
  have nonempty : report.neighbours ≠ [] := nofun
  obtain ⟨target, unchanged, answered, _, first⟩ :=
    decides_first_best (α := Float) tagged ⟨7⟩ nonempty store
  have decided : evaluation.answer = .ok ⟨⟨7⟩, some ⟨9⟩⟩ := rfl
  cases answered.symm.trans decided
  exact ⟨⟨_, registered⟩, tagged, nonempty, unchanged, decided, first ⟨9⟩ rfl⟩

end Handover.Strategy.BestNeighbour
