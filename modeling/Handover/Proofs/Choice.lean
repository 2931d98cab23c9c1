import Handover.Strategy.BestNeighbour
import Handover.Ue.Neighbour
import Mathlib.Data.List.Basic
import Mathlib.Tactic.SplitIfs

/-!
# Choosing by one pass

A neighbour is chosen by going through a list once and keeping the best entry so
far.  Whatever is chosen in the end was an entry that could be chosen.  If each step
keeps the entry that is ahead, then none is ahead of the one chosen in the end.
-/

namespace Handover

universe u v

/-! ## What a pass ends with -/

section Pass

variable {β : Type u} {γ : Type v} {step : Option β → γ → Option β} {Offers : γ → β → Prop}

/-- If every step keeps its choice or takes what the entry offers, then the final
choice was there from the start or is what some entry offers. -/
theorem offered_of_foldl
    (keepsOrTakes : ∀ choice entry, step choice entry = choice ∨
      ∃ value, Offers entry value ∧ step choice entry = some value)
    {entries : List γ} {choice : Option β} {value : β}
    (chosen : entries.foldl step choice = some value) :
    choice = some value ∨ ∃ entry ∈ entries, Offers entry value := by
  induction entries generalizing choice with
  | nil => exact .inl chosen
  | cons entry rest ih =>
      -- What the head leaves counts only if no later entry is taken instead.
      rcases ih chosen with preferred | ⟨later, member, offers⟩
      · rcases keepsOrTakes choice entry with kept | ⟨taken, offers, equal⟩
        · exact .inl (kept.symm.trans preferred)
        · rw [equal] at preferred
          cases preferred
          exact .inr ⟨entry, List.mem_cons_self, offers⟩
      · exact .inr ⟨later, List.mem_cons_of_mem entry member, offers⟩

/-- Without a choice to start from, it is what some entry offers. -/
theorem exists_offered_of_foldl
    (keepsOrTakes : ∀ choice entry, step choice entry = choice ∨
      ∃ value, Offers entry value ∧ step choice entry = some value)
    {entries : List γ} {value : β} (chosen : entries.foldl step none = some value) :
    ∃ entry ∈ entries, Offers entry value :=
  (offered_of_foldl keepsOrTakes chosen).resolve_left nofun

/-- If no step gives a choice up and every step takes some entry or another, then
a pass that meets this entry ends with a choice. -/
theorem isSome_foldl_of_mem
    (keeps : ∀ choice entry, choice.isSome = true → (step choice entry).isSome = true)
    {entries : List γ} {entry : γ} (member : entry ∈ entries)
    (takes : ∀ choice, (step choice entry).isSome = true) (choice : Option β) :
    (entries.foldl step choice).isSome = true := by
  have kept : ∀ (rest : List γ) (choice : Option β), choice.isSome = true →
      (rest.foldl step choice).isSome = true := by
    intro rest
    induction rest with
    | nil => exact fun _ some => some
    | cons head rest ih => exact fun choice some => ih _ (keeps choice head some)
  induction member generalizing choice with
  | head rest => exact kept rest _ (takes choice)
  | tail head _ ih => exact ih _

end Pass

/-! ## Chains of choices -/

section Chains

variable {α : Type u} {values xs ys : List α} {ahead : α → α → Prop} {select : α → α → α}
  {start : α}

/-- A choice between two values that keeps the one ahead. -/
structure Prefers (values : List α) (ahead : α → α → Prop) (select : α → α → α) : Prop where
  refl : ∀ x ∈ values, ahead x x
  trans : ∀ {x y z}, ahead x y → ahead y z → ahead x z
  either : ∀ x ∈ values, ∀ y ∈ values,
    select x y = x ∧ ahead x y ∨ select x y = y ∧ ahead y x

/-- The values are told apart by which one is ahead. -/
structure Selects (values : List α) (ahead : α → α → Prop) (select : α → α → α) : Prop
    extends Prefers values ahead select where
  antisymm : ∀ x ∈ values, ∀ y ∈ values, ahead x y → ahead y x → x = y

/-- A chain of choices ends with a value that is ahead of all others. -/
theorem Prefers.foldl_ahead (prefers : Prefers values ahead select) (known : start ∈ values)
    (listed : ∀ x ∈ xs, x ∈ values) :
    xs.foldl select start ∈ start :: xs ∧ ∀ x ∈ start :: xs, ahead (xs.foldl select start) x := by
  induction xs generalizing start with
  | nil =>
      exact ⟨List.mem_cons_self, List.forall_mem_singleton.mpr (prefers.refl start known)⟩
  | cons x rest ih =>
      rw [List.forall_mem_cons] at listed
      simp only [List.foldl_cons, List.forall_mem_cons]
      rcases prefers.either start known x listed.1 with ⟨kept, before⟩ | ⟨kept, before⟩
      · rw [kept]
        obtain ⟨member, first⟩ := ih known listed.2
        rw [List.forall_mem_cons] at first
        refine ⟨?_, first.1, prefers.trans first.1 before, first.2⟩
        exact List.mem_cons.mpr ((List.mem_cons.mp member).imp_right (List.mem_cons_of_mem x))
      · rw [kept]
        obtain ⟨member, first⟩ := ih listed.1 listed.2
        rw [List.forall_mem_cons] at first
        exact ⟨List.mem_cons_of_mem _ member, prefers.trans first.1 before, first⟩

namespace Selects

theorem foldl_mem (selects : Selects values ahead select) (known : start ∈ values)
    (listed : ∀ x ∈ xs, x ∈ values) : xs.foldl select start ∈ values :=
  List.forall_mem_cons.mpr ⟨known, listed⟩ _ (selects.foldl_ahead known listed).1

/-- A chain that starts behind all its values ends with one of them. -/
theorem foldl_mem_of_behind (selects : Selects values ahead select) (known : start ∈ values)
    (listed : ∀ x ∈ xs, x ∈ values) (nonempty : xs ≠ []) (behind : ∀ x ∈ xs, ahead x start) :
    xs.foldl select start ∈ xs ∧ ∀ x ∈ xs, ahead (xs.foldl select start) x := by
  obtain ⟨member, first⟩ := selects.foldl_ahead known listed
  rw [List.forall_mem_cons] at first
  refine ⟨(List.mem_cons.mp member).elim (fun kept => ?_) id, first.2⟩
  obtain ⟨x, inside⟩ := List.exists_mem_of_ne_nil xs nonempty
  have level := selects.antisymm start known x (listed x inside) (kept ▸ first.2 x inside)
    (behind x inside)
  rw [kept, level]
  exact inside

/-- Chains over the same values end alike. -/
theorem foldl_congr (selects : Selects values ahead select) (known : start ∈ values)
    (listed : ∀ x ∈ xs, x ∈ values) (same : ∀ x, x ∈ ys ↔ x ∈ xs) :
    ys.foldl select start = xs.foldl select start := by
  have listedToo : ∀ y ∈ ys, y ∈ values := fun y member => listed y ((same y).mp member)
  have both (x : α) : x ∈ start :: ys ↔ x ∈ start :: xs := by
    rw [List.mem_cons, List.mem_cons, same]
  obtain ⟨memberYs, aheadYs⟩ := selects.foldl_ahead known listedToo
  obtain ⟨memberXs, aheadXs⟩ := selects.foldl_ahead known listed
  exact selects.antisymm _ (selects.foldl_mem known listedToo) _ (selects.foldl_mem known listed)
    (aheadYs _ ((both _).mpr memberXs)) (aheadXs _ ((both _).mp memberYs))

end Selects

end Chains

/-! ## Neighbours -/

namespace NeighbourRecord

theorem better_cases (choice : Option NeighbourRecord) (record : NeighbourRecord) :
    better choice record = choice ∨
      ∃ taken, record = taken ∧ better choice record = some taken := by
  unfold better
  split
  · exact .inr ⟨record, rfl, rfl⟩
  · split
    · exact .inr ⟨record, rfl, rfl⟩
    · exact .inl rfl

/-- The best record that satisfies a test is a record that satisfies it. -/
theorem best?_mem {test : NeighbourRecord → Bool} {records : List NeighbourRecord}
    {best : NeighbourRecord} (chosen : best? test records = some best) :
    best ∈ records ∧ test best = true := by
  rcases exists_offered_of_foldl better_cases chosen with ⟨record, member, rfl⟩
  exact List.mem_filter.mp member

end NeighbourRecord

namespace Strategy.BestNeighbour

/-- A result that may be chosen: it has a quality other than zero and is not for
the serving cell. -/
structure Offers (serving : Option CellId) (result : NeighbourResult)
    (chosen : CellId × Level) : Prop where
  cell : result.cell = chosen.1
  rsrq : result.rsrq = some chosen.2
  distinct : some chosen.1 ≠ serving
  nonzero : chosen.2 ≠ 0

theorem prefer_cases (serving : Option CellId) (choice : Option (CellId × Level))
    (result : NeighbourResult) :
    prefer serving choice result = choice ∨
      ∃ taken, Offers serving result taken ∧ prefer serving choice result = some taken := by
  unfold prefer
  split
  · exact .inl rfl
  · next rsrq reported =>
    dsimp only
    split_ifs with both
    · have positive : 0 < rsrq := UInt8.lt_of_le_of_lt UInt8.zero_le both.2
      exact .inr ⟨(result.cell, rsrq),
        ⟨rfl, reported, both.1, UInt8.pos_iff_ne_zero.mp positive⟩, rfl⟩
    · exact .inl rfl

end Strategy.BestNeighbour

end Handover
