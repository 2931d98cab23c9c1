import Handover.Proofs.Choice
import Mathlib.Data.List.Nodup
import Mathlib.Tactic.ByContra

/-!
# The best record

Of two records the one of better quality is ahead, and of two of the same quality the
one with the lower cell number.  So the best record that satisfies a test is the same
cell, whatever the order in which the records are visited.
-/

namespace Handover.NeighbourRecord

variable {records : List NeighbourRecord} {first second third best other : NeighbourRecord}

/-! ## The order of records -/

/-- A comparison of records is one of numbers. -/
theorem outranks_iff :
    first.Outranks second ↔
      second.rsrq.toNat < first.rsrq.toNat ∨
        first.rsrq.toNat = second.rsrq.toNat ∧
          first.cell.value.toNat < second.cell.value.toNat := by
  rw [Outranks, UInt8.lt_iff_toNat_lt, UInt16.lt_iff_toNat_lt, UInt8.toNat_inj]

theorem not_outranks_self (record : NeighbourRecord) : ¬record.Outranks record := by
  rw [outranks_iff]
  omega

theorem Outranks.asymm (ahead : first.Outranks second) : ¬second.Outranks first := by
  rw [outranks_iff] at ahead ⊢
  omega

theorem not_outranks_trans (firstAhead : ¬second.Outranks first)
    (secondAhead : ¬third.Outranks second) : ¬third.Outranks first := by
  rw [outranks_iff] at firstAhead secondAhead ⊢
  omega

/-! ## One pass -/

/-- The record that a step keeps. -/
def leading (best record : NeighbourRecord) : NeighbourRecord :=
  if record.Outranks best then record else best

theorem foldl_better (best : NeighbourRecord) (records : List NeighbourRecord) :
    records.foldl better (some best) = some (records.foldl leading best) :=
  List.foldl_hom some fun kept record => (apply_ite some (record.Outranks kept) record kept).symm

theorem prefers_leading (values : List NeighbourRecord) :
    Prefers values (fun first second => ¬second.Outranks first) leading where
  refl record _ := record.not_outranks_self
  trans := not_outranks_trans
  either first _ second _ := by
    unfold leading
    split
    · next outranks => exact .inr ⟨rfl, outranks.asymm⟩
    · next behind => exact .inl ⟨rfl, behind⟩

/-! ## The record that leads -/

/-- A record that satisfies a condition, and none that does has a greater quality, or the
same with a lower cell number. -/
structure Leads (allowed : NeighbourRecord → Prop) (records : List NeighbourRecord)
    (best : NeighbourRecord) : Prop where
  listed : best ∈ records
  passes : allowed best
  greatest : ∀ other ∈ records, allowed other → other.rsrq ≤ best.rsrq
  lowest : ∀ other ∈ records, allowed other → other.rsrq = best.rsrq →
    best.cell.value ≤ other.cell.value

variable {allowed : NeighbourRecord → Prop} {test : NeighbourRecord → Bool}

/-- Two records that lead are of the same cell and quality. -/
theorem Leads.unique (leads : Leads allowed records best) (leadsToo : Leads allowed records other) :
    best.cell = other.cell ∧ best.rsrq = other.rsrq := by
  have level : best.rsrq = other.rsrq :=
    UInt8.le_antisymm (leadsToo.greatest best leads.listed leads.passes)
      (leads.greatest other leadsToo.listed leadsToo.passes)
  refine ⟨congrArg CellId.mk (UInt16.le_antisymm ?_ ?_), level⟩
  · exact leads.lowest other leadsToo.listed leadsToo.passes level.symm
  · exact leadsToo.lowest best leads.listed leads.passes level

/-- Whether a record leads depends on which records there are only. -/
theorem Leads.perm {order : List NeighbourRecord} (leads : Leads allowed records best)
    (same : order.Perm records) : Leads allowed order best where
  listed := same.mem_iff.mpr leads.listed
  passes := leads.passes
  greatest other member := leads.greatest other (same.mem_iff.mp member)
  lowest other member := leads.lowest other (same.mem_iff.mp member)

theorem leads_of_unbeaten (listed : best ∈ records) (passes : allowed best)
    (unbeaten : ∀ other ∈ records, allowed other → ¬other.Outranks best) :
    Leads allowed records best where
  listed := listed
  passes := passes
  greatest other member passes := by
    have behind := unbeaten other member passes
    rw [outranks_iff] at behind
    rw [UInt8.le_iff_toNat_le]
    omega
  lowest other member passes level := by
    have behind := unbeaten other member passes
    rw [outranks_iff, level] at behind
    rw [UInt16.le_iff_toNat_le]
    omega

/-- The best record that satisfies a test leads those that do. -/
theorem best?_leads (chosen : best? test records = some best) :
    Leads (test · = true) records best := by
  obtain ⟨listed, passes⟩ := best?_mem chosen
  refine leads_of_unbeaten listed passes fun other member passesToo => ?_
  rw [best?] at chosen
  have kept : other ∈ records.filter test := List.mem_filter.mpr ⟨member, passesToo⟩
  cases candidates : records.filter test with
  | nil =>
      rw [candidates] at kept
      cases kept
  | cons start rest =>
      -- The first record that passes starts the pass over the others.
      rw [candidates, List.foldl_cons, better, foldl_better] at chosen
      cases chosen
      rw [candidates] at kept
      exact ((prefers_leading (start :: rest)).foldl_ahead List.mem_cons_self fun _ =>
        List.mem_cons_of_mem start).2 other kept

/-- There is a best record as soon as one satisfies the test. -/
theorem exists_best? (listed : first ∈ records) (passes : test first = true) :
    ∃ best, best? test records = some best := by
  have kept : first ∈ records.filter test := List.mem_filter.mpr ⟨listed, passes⟩
  refine Option.isSome_iff_exists.mp (isSome_foldl_of_mem ?_ kept ?_ none)
  · intro choice record chosen
    obtain ⟨best, rfl⟩ := Option.isSome_iff_exists.mp chosen
    rw [better]
    split <;> rfl
  · intro choice
    unfold better
    split
    · rfl
    · split <;> rfl

/-- There is no best record exactly if no record satisfies the test. -/
theorem best?_eq_none_iff :
    best? test records = none ↔ ∀ record ∈ records, test record = false := by
  constructor
  · intro none record listed
    by_contra passes
    obtain ⟨best, chosen⟩ := exists_best? listed ((Bool.not_eq_false _).mp passes)
    cases none.symm.trans chosen
  · intro fails
    cases chosen : best? test records with
    | none => rfl
    | some best =>
        obtain ⟨listed, passes⟩ := best?_mem chosen
        cases (fails best listed).symm.trans passes

/-! ## One record for each cell -/

section Cells

variable (distinct : (records.map cell).Nodup)

include distinct

/-- Of records of different cells only one can lead. -/
theorem Leads.eq (leads : Leads allowed records best) (leadsToo : Leads allowed records other) :
    best = other :=
  List.inj_on_of_nodup_map distinct leads.listed leadsToo.listed (leads.unique leadsToo).1

theorem best?_eq_some_iff :
    best? test records = some best ↔ Leads (test · = true) records best := by
  constructor
  · exact best?_leads
  · intro leads
    obtain ⟨other, chosen⟩ := exists_best? leads.listed leads.passes
    rw [chosen, (best?_leads chosen).eq distinct leads]

/-- The order in which records of different cells are visited does not matter. -/
theorem best?_perm {order : List NeighbourRecord} (same : order.Perm records) :
    best? test order = best? test records := by
  have distinctToo : (order.map cell).Nodup := (same.map cell).nodup_iff.mpr distinct
  ext best
  rw [best?_eq_some_iff distinctToo, best?_eq_some_iff distinct]
  exact ⟨fun leads => leads.perm same.symm, fun leads => leads.perm same⟩

end Cells

end Handover.NeighbourRecord
