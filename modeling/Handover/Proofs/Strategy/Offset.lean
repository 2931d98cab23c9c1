import Handover.Proofs.Strategy.Attempt
import Handover.Proofs.Strategy.Target
import Handover.Proofs.Ue.Best

/-!
# Handover by a lead

A report of a poor serving cell is compared with one record only, the best candidate.
That is enough: if any candidate is ahead of the serving cell by the offset, then the best
one is.  The lead is a difference of numbers, so it does not wrap around.
-/

namespace Handover.Strategy.Offset

open NeighbourRecord

variable {α : Type} {strategy : Offset} {serving : Option CellId} {servingRsrq : Level}
  {records : List NeighbourRecord}

/-! ## Candidates -/

/-- A record that may be handed over to. -/
structure Candidate (serving : Option CellId) (record : NeighbourRecord) : Prop where
  nonzero : record.rsrq ≠ 0
  distinct : some record.cell ≠ serving

theorem isCandidate_iff {record : NeighbourRecord} :
    isCandidate serving record = true ↔ Candidate serving record := by
  rw [isCandidate, Bool.and_eq_true, decide_eq_true_eq, bne_iff_ne, UInt8.pos_iff_ne_zero]
  exact ⟨fun both => ⟨both.1, both.2⟩, fun candidate => ⟨candidate.nonzero, candidate.distinct⟩⟩

/-- A level is ahead of the serving cell by the offset at least. -/
def Reaches (strategy : Offset) (servingRsrq rsrq : Level) : Prop :=
  servingRsrq.toNat + strategy.neighbourOffset.toNat ≤ rsrq.toNat

/-- The lead is compared as a difference of whole numbers. -/
theorem le_lead_iff {rsrq : Level} :
    (strategy.neighbourOffset.toNat : Int) ≤ (rsrq.toNat : Int) - servingRsrq.toNat ↔
      strategy.Reaches servingRsrq rsrq := by
  rw [Reaches]
  omega

theorem Reaches.mono {rsrq greater : Level} (reaches : strategy.Reaches servingRsrq rsrq)
    (le : rsrq ≤ greater) : strategy.Reaches servingRsrq greater :=
  Nat.le_trans reaches (UInt8.le_iff_toNat_le.mp le)

theorem leads_of_best? {best : NeighbourRecord}
    (picked : best? (isCandidate serving) records = some best) :
    Leads (Candidate serving) records best := by
  have leads := best?_leads picked
  simp only [isCandidate_iff] at leads
  exact leads

/-! ## The target -/

/-- The target for a serving cell of the given quality if the records are visited in the
given order. -/
def targetAmong (strategy : Offset) (serving : Option CellId) (servingRsrq : Level)
    (records : List NeighbourRecord) : Option CellId :=
  if strategy.servingThreshold < servingRsrq then none
  else
    match best? (isCandidate serving) records with
    | none => none
    | some best =>
      if (strategy.neighbourOffset.toNat : Int) ≤ (best.rsrq.toNat : Int) - servingRsrq.toNat then
        some best.cell
      else none

theorem targetAmong_eq_some_iff {cell : CellId} :
    strategy.targetAmong serving servingRsrq records = some cell ↔
      servingRsrq ≤ strategy.servingThreshold ∧
        ∃ best, Leads (Candidate serving) records best ∧
          strategy.Reaches servingRsrq best.rsrq ∧ best.cell = cell := by
  rw [targetAmong]
  constructor
  · intro chosen
    split_ifs at chosen with above
    refine ⟨UInt8.not_lt.mp above, ?_⟩
    split at chosen
    · cases chosen
    · next best picked =>
      split_ifs at chosen with ahead
      exact ⟨best, leads_of_best? picked, le_lead_iff.mp ahead, Option.some.inj chosen⟩
  · rintro ⟨poor, best, leads, ahead, rfl⟩
    -- The pass may end with another record, but of the same cell and quality.
    obtain ⟨other, picked⟩ := exists_best? leads.listed (isCandidate_iff.mpr leads.passes)
    obtain ⟨cells, levels⟩ := leads.unique (leads_of_best? picked)
    rw [cells]
    rw [levels] at ahead
    rw [if_neg (UInt8.not_lt.mpr poor), picked]
    exact if_pos (le_lead_iff.mpr ahead)

/-- The order in which the records are visited does not matter. -/
theorem targetAmong_perm {order : List NeighbourRecord} (same : order.Perm records) :
    strategy.targetAmong serving servingRsrq order =
      strategy.targetAmong serving servingRsrq records := by
  ext cell
  have alike (best : NeighbourRecord) :
      Leads (Candidate serving) order best ↔ Leads (Candidate serving) records best :=
    ⟨fun leads => leads.perm same.symm, fun leads => leads.perm same⟩
  rw [targetAmong_eq_some_iff, targetAmong_eq_some_iff]
  simp only [alike]

/-- There is a target as soon as one candidate is ahead by the offset. -/
theorem isSome_targetAmong_iff :
    (strategy.targetAmong serving servingRsrq records).isSome ↔
      servingRsrq ≤ strategy.servingThreshold ∧
        ∃ record ∈ records, Candidate serving record ∧
          strategy.Reaches servingRsrq record.rsrq := by
  simp only [Option.isSome_iff_exists, targetAmong_eq_some_iff]
  constructor
  · rintro ⟨cell, poor, best, leads, ahead, _⟩
    exact ⟨poor, best, leads.listed, leads.passes, ahead⟩
  · rintro ⟨poor, record, listed, candidate, ahead⟩
    obtain ⟨best, picked⟩ := exists_best? listed (isCandidate_iff.mpr candidate)
    have leads := leads_of_best? picked
    exact ⟨best.cell, poor, best, leads, ahead.mono (leads.greatest record listed candidate), rfl⟩

/-! ## Evaluations -/

/-- A strategy that has registered its events tells the two apart. -/
theorem discoveryEvent_ne {plain : Offset} {before events : Configurator}
    {interval : ReportInterval}
    (registered : plain.register (α := α) before interval = ⟨strategy, events, .ok ()⟩)
    {id : MeasId} (tagged : strategy.servingEvent = some id) :
    strategy.discoveryEvent ≠ some id := by
  have done : (plain.register (α := α) before interval).result = .ok () := by rw [registered]
  obtain ⟨first, second⟩ := accepts_of_registerTwo plain _ done
  have whole := registered.symm.trans (registerTwo_of_accepts plain _ first second)
  cases whole
  cases tagged
  intro same
  -- An identity counts the events before it, and below the limit no count wraps around.
  have numbers := congrArg (fun id => id.value.toNat) (Option.some.inj same)
  rw [Configurator.nextId_toNat second.2, Configurator.nextId_toNat first.2,
    Configurator.size_add] at numbers
  omega

theorem target?_eq (ue : UeId) (store : Store) (poor : servingRsrq ≤ strategy.servingThreshold) :
    strategy.target? ue servingRsrq store =
      strategy.targetAmong (store.stateOf ue).servingCell servingRsrq (store.snapshot ue) := by
  rw [target?, targetAmong, if_neg (UInt8.not_lt.mpr poor), bind_servingCell, Store.best?,
    Store.snapshot]
  cases known : store.state? ue with
  | none => rfl
  | some state => rfl

/-- A report of a poor serving cell leaves the store as it is and ends with the target
among the records of the terminal. -/
theorem evaluate_of_tagged {id : MeasId} (apart : strategy.discoveryEvent ≠ some id)
    (tagged : strategy.servingEvent = some id) (ue : UeId) (report : Report) (store : Store) :
    let evaluation := strategy.evaluate (α := α) ue id report store
    evaluation.store = store ∧
      evaluation.answer = .ok ⟨ue, strategy.targetAmong (store.stateOf ue).servingCell
        report.servingRsrq (store.snapshot ue)⟩ := by
  rw [evaluate, if_neg apart, if_neg (not_not.mpr tagged), whenConsistent]
  split_ifs with above
  · exact ⟨rfl, by rw [targetAmong, if_pos above, Decision.abstain]⟩
  · exact ⟨rfl, by rw [target?_eq ue store (UInt8.not_lt.mp above)]⟩

/-- A report of a poor serving cell ends in a handover exactly if its quality is at most
the threshold and a record of the terminal, of another cell and with a quality other than
zero, is ahead of it by the offset at least.  The target is the candidate of greatest
quality, the lowest cell number winning ties, in whatever order the records are visited,
and nothing that is known of any terminal changes. -/
theorem decides_by_lead {plain : Offset} {before events : Configurator}
    {interval : ReportInterval}
    (registered : plain.register (α := α) before interval = ⟨strategy, events, .ok ()⟩)
    {id : MeasId} (tagged : strategy.servingEvent = some id) (ue : UeId) (report : Report)
    (store : Store) :
    let serving := (store.stateOf ue).servingCell
    let records := store.snapshot ue
    let evaluation := strategy.evaluate (α := α) ue id report store
    ∃ target, evaluation.store = store ∧ evaluation.answer = .ok ⟨ue, target⟩ ∧
      (target.isSome ↔ report.servingRsrq ≤ strategy.servingThreshold ∧
        ∃ record ∈ records, Candidate serving record ∧
          report.servingRsrq.toNat + strategy.neighbourOffset.toNat ≤ record.rsrq.toNat) ∧
      (∀ cell, target = some cell →
        ∃ best, Leads (Candidate serving) records best ∧ best.cell = cell) ∧
      ∀ order, order.Perm records →
        strategy.targetAmong serving report.servingRsrq order = target := by
  intro serving records evaluation
  obtain ⟨unchanged, answered⟩ := evaluate_of_tagged (α := α)
    (discoveryEvent_ne registered tagged) tagged ue report store
  refine ⟨_, unchanged, answered, isSome_targetAmong_iff, ?_, fun order => targetAmong_perm⟩
  intro cell chosen
  obtain ⟨_, best, leads, _, named⟩ := targetAmong_eq_some_iff.mp chosen
  exact ⟨best, leads, named⟩

/-- Two neighbours are ahead by the offset with the same quality, and the one with the
lower cell number is chosen.  The serving cell has a record of greater quality. -/
theorem lowest_of_tied_neighbours :
    let strategy : Offset := ⟨30, 5, some ⟨1⟩, some ⟨2⟩⟩
    let store := (Store.empty 6).change ⟨7⟩ fun state =>
      ((((state.updateNeighbour ⟨9⟩ 50 20 ⟨10⟩).updateNeighbour ⟨5⟩ 50 20 ⟨10⟩).updateNeighbour
        ⟨3⟩ 50 0 ⟨10⟩).updateNeighbour ⟨2⟩ 50 34 ⟨10⟩).setServing ⟨2⟩ ⟨11⟩
    let evaluation := strategy.evaluate (α := Float) ⟨7⟩ ⟨1⟩ ⟨⟨20⟩, 40, 15, []⟩ store
    (∃ events, (ofParameters 30 5).register (α := Float) .empty .shortest =
        ⟨strategy, events, .ok ()⟩) ∧ strategy.servingEvent = some ⟨1⟩ ∧
      evaluation.store = store ∧ evaluation.answer = .ok ⟨⟨7⟩, some ⟨5⟩⟩ ∧
      ∃ best, Leads (Candidate (some ⟨2⟩)) (store.snapshot ⟨7⟩) best ∧ best.cell = ⟨5⟩ := by
  intro strategy store evaluation
  have registered : (ofParameters 30 5).register (α := Float) .empty .shortest =
      ⟨strategy, Configurator.ofEvents [.servingBelow 30, .neighbourAbove 0], .ok ()⟩ := rfl
  obtain ⟨target, unchanged, answered, _, leads, _⟩ :=
    decides_by_lead registered rfl ⟨7⟩ ⟨⟨20⟩, 40, 15, []⟩ store
  have decided : evaluation.answer = .ok ⟨⟨7⟩, some ⟨5⟩⟩ := rfl
  cases answered.symm.trans decided
  exact ⟨⟨_, registered⟩, rfl, unchanged, decided, leads ⟨5⟩ rfl⟩

end Handover.Strategy.Offset
