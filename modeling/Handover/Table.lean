/-!
# Tables in key order

A `Table` maps keys to values and lists its entries by ascending key.  Keys are
ordered by an injective rank, so two tables are equal as soon as every lookup
in them agrees, and whatever is computed from the entries does not depend on
the history of insertions.
-/

namespace Handover

universe u v

/-- Keys with an order, given by an injective rank. -/
class Keyed (κ : Type u) where
  /-- Position of a key in the order. -/
  rank : κ → Nat
  /-- Distinct keys have distinct ranks. -/
  rank_injective : ∀ {first second : κ}, rank first = rank second → first = second

export Keyed (rank)

theorem rank_inj {κ : Type u} [Keyed κ] {first second : κ} :
    rank first = rank second ↔ first = second :=
  ⟨Keyed.rank_injective, congrArg rank⟩

/-- A finite map whose entries ascend in their keys. -/
structure Table (κ : Type u) (ν : Type v) [Keyed κ] where
  /-- The entries, by ascending key. -/
  entries : List (κ × ν)
  /-- No key occurs twice, and the keys ascend. -/
  ascending : entries.Pairwise fun left right => rank left.1 < rank right.1

namespace Table

variable {κ : Type u} {ν : Type v} [Keyed κ]

/-- First value stored under a key in a list of entries. -/
def find? (key : κ) : List (κ × ν) → Option ν
  | [] => none
  | (other, value) :: rest => if rank key = rank other then some value else find? key rest

/-- Puts an entry at its place, replacing the one with the same key. -/
def place (key : κ) (value : ν) : List (κ × ν) → List (κ × ν)
  | [] => [(key, value)]
  | (other, old) :: rest =>
    if rank key < rank other then (key, value) :: (other, old) :: rest
    else if rank key = rank other then (key, value) :: rest
    else (other, old) :: place key value rest

theorem mem_place {key : κ} {value : ν} {entry : κ × ν} {entries : List (κ × ν)}
    (member : entry ∈ place key value entries) : entry = (key, value) ∨ entry ∈ entries := by
  induction entries with
  | nil => simpa [place] using member
  | cons head rest ih =>
    obtain ⟨other, old⟩ := head
    rw [place] at member
    split at member
    · simpa using member
    · split at member
      · rcases List.mem_cons.1 member with same | later
        · exact .inl same
        · exact .inr (List.mem_cons_of_mem _ later)
      · rcases List.mem_cons.1 member with same | later
        · exact .inr (same ▸ List.mem_cons_self)
        · exact (ih later).imp_right (List.mem_cons_of_mem _)

theorem ascending_place (key : κ) (value : ν) {entries : List (κ × ν)}
    (ascending : entries.Pairwise fun left right => rank left.1 < rank right.1) :
    (place key value entries).Pairwise fun left right => rank left.1 < rank right.1 := by
  induction entries with
  | nil => simp [place]
  | cons head rest ih =>
    obtain ⟨other, old⟩ := head
    rw [List.pairwise_cons] at ascending
    rw [place]
    split
    · next below =>
      refine List.pairwise_cons.2 ⟨fun entry member => ?_, List.pairwise_cons.2 ascending⟩
      rcases List.mem_cons.1 member with rfl | later
      · exact below
      · exact Nat.lt_trans below (ascending.1 entry later)
    · split
      · next same =>
        refine List.pairwise_cons.2 ⟨fun entry member => ?_, ascending.2⟩
        exact same ▸ ascending.1 entry member
      · next notBelow notSame =>
        refine List.pairwise_cons.2 ⟨fun entry member => ?_, ih ascending.2⟩
        rcases mem_place member with rfl | later
        · exact Nat.lt_of_le_of_ne (Nat.le_of_not_lt notBelow) fun same => notSame same.symm
        · exact ascending.1 entry later

/-- The table without entries. -/
def empty : Table κ ν :=
  ⟨[], .nil⟩

instance : Inhabited (Table κ ν) :=
  ⟨empty⟩

/-- The value stored under a key. -/
def get? (table : Table κ ν) (key : κ) : Option ν :=
  find? key table.entries

/-- Stores a value under a key, replacing an older one. -/
def insert (table : Table κ ν) (key : κ) (value : ν) : Table κ ν :=
  ⟨place key value table.entries, ascending_place key value table.ascending⟩

/-- Keeps the entries that satisfy a test. -/
def filter (table : Table κ ν) (keep : κ → ν → Bool) : Table κ ν :=
  ⟨table.entries.filter fun entry => keep entry.1 entry.2, table.ascending.filter _⟩

/-- Removes the entry of a key. -/
def erase (table : Table κ ν) (key : κ) : Table κ ν :=
  table.filter fun other _ => rank other != rank key

/-- Replaces every value by one computed from it; the keys stay. -/
def map {μ : Type v} (table : Table κ ν) (change : ν → μ) : Table κ μ :=
  ⟨table.entries.map fun entry => (entry.1, change entry.2), by
    rw [List.pairwise_map]
    exact table.ascending⟩

/-- Changes the value stored under a key, if there is one. -/
def modify (table : Table κ ν) (key : κ) (change : ν → ν) : Table κ ν :=
  match table.get? key with
  | some value => table.insert key (change value)
  | none => table

/-- The values, by ascending key. -/
def values (table : Table κ ν) : List ν :=
  table.entries.map Prod.snd

/-- The keys, ascending. -/
def keys (table : Table κ ν) : List κ :=
  table.entries.map Prod.fst

/-- The number of entries. -/
def size (table : Table κ ν) : Nat :=
  table.entries.length

theorem find?_place_self (key : κ) (value : ν) (entries : List (κ × ν)) :
    find? key (place key value entries) = some value := by
  induction entries with
  | nil => simp [place, find?]
  | cons head rest ih =>
    obtain ⟨other, old⟩ := head
    rw [place]
    split
    · simp [find?]
    · split
      · simp [find?]
      · next notSame => simp [find?, notSame, ih]

theorem find?_place_of_ne {key wanted : κ} (distinct : wanted ≠ key) (value : ν)
    (entries : List (κ × ν)) : find? wanted (place key value entries) = find? wanted entries := by
  have ranks : rank wanted ≠ rank key := fun same => distinct (rank_inj.1 same)
  induction entries with
  | nil => simp [place, find?, ranks]
  | cons head rest ih =>
    obtain ⟨other, old⟩ := head
    rw [place]
    split
    · simp [find?, ranks]
    · split
      · next same =>
        have others : rank wanted ≠ rank other := fun equal => ranks (equal.trans same.symm)
        simp [find?, ranks, others]
      · simp [find?, ih]

theorem find?_eq_some_of_mem {key : κ} {value : ν} {entries : List (κ × ν)}
    (ascending : entries.Pairwise fun left right => rank left.1 < rank right.1)
    (member : (key, value) ∈ entries) : find? key entries = some value := by
  induction entries with
  | nil => cases member
  | cons head rest ih =>
    obtain ⟨other, old⟩ := head
    rw [List.pairwise_cons] at ascending
    rcases List.mem_cons.1 member with same | later
    · cases same
      simp [find?]
    · have below := ascending.1 _ later
      have ranks : rank key ≠ rank other := fun equal => by
        simp only at below
        omega
      simp [find?, ranks, ih ascending.2 later]

theorem mem_of_find?_eq_some {key : κ} {value : ν} {entries : List (κ × ν)}
    (found : find? key entries = some value) : (key, value) ∈ entries := by
  induction entries with
  | nil => simp [find?] at found
  | cons head rest ih =>
    obtain ⟨other, old⟩ := head
    rw [find?] at found
    split at found
    · next same =>
      cases found
      cases rank_inj.1 same
      exact List.mem_cons_self
    · exact List.mem_cons_of_mem _ (ih found)

@[simp]
theorem get?_empty (key : κ) : (empty : Table κ ν).get? key = none :=
  rfl

@[simp]
theorem get?_insert_self (table : Table κ ν) (key : κ) (value : ν) :
    (table.insert key value).get? key = some value :=
  find?_place_self key value table.entries

theorem get?_insert_of_ne (table : Table κ ν) {key wanted : κ} (distinct : wanted ≠ key)
    (value : ν) : (table.insert key value).get? wanted = table.get? wanted :=
  find?_place_of_ne distinct value table.entries

/-- A key and a value belong together in the entries exactly if the lookup
yields that value. -/
theorem mem_entries_iff {table : Table κ ν} {key : κ} {value : ν} :
    (key, value) ∈ table.entries ↔ table.get? key = some value :=
  ⟨find?_eq_some_of_mem table.ascending, mem_of_find?_eq_some⟩

theorem get?_filter (table : Table κ ν) (keep : κ → ν → Bool) (key : κ) :
    (table.filter keep).get? key = (table.get? key).filter (keep key) := by
  apply Option.ext
  intro value
  rw [← mem_entries_iff, filter, List.mem_filter, mem_entries_iff, Option.filter_eq_some_iff]

@[simp]
theorem get?_erase_self (table : Table κ ν) (key : κ) : (table.erase key).get? key = none := by
  simp [erase, get?_filter]

theorem get?_erase_of_ne (table : Table κ ν) {key wanted : κ} (distinct : wanted ≠ key) :
    (table.erase key).get? wanted = table.get? wanted := by
  have ranks : (rank wanted != rank key) = true := by
    simpa using fun same => distinct (rank_inj.1 same)
  rw [erase, get?_filter, ranks]
  cases table.get? wanted <;> rfl

@[simp]
theorem get?_modify_self (table : Table κ ν) (key : κ) (change : ν → ν) :
    (table.modify key change).get? key = (table.get? key).map change := by
  unfold modify
  cases found : table.get? key <;> simp [found]

theorem get?_modify_of_ne (table : Table κ ν) {key wanted : κ} (distinct : wanted ≠ key)
    (change : ν → ν) : (table.modify key change).get? wanted = table.get? wanted := by
  unfold modify
  cases table.get? key with
  | none => rfl
  | some value => exact get?_insert_of_ne table distinct (change value)

theorem entries_eq_of_find? {first second : List (κ × ν)}
    (firstAscending : first.Pairwise fun left right => rank left.1 < rank right.1)
    (secondAscending : second.Pairwise fun left right => rank left.1 < rank right.1)
    (agree : ∀ key, find? key first = find? key second) : first = second := by
  induction first generalizing second with
  | nil =>
    cases second with
    | nil => rfl
    | cons head rest =>
      obtain ⟨key, value⟩ := head
      have absent := agree key
      simp [find?] at absent
  | cons head rest ih =>
    obtain ⟨key, value⟩ := head
    cases second with
    | nil =>
      have absent := agree key
      simp [find?] at absent
    | cons other others =>
      obtain ⟨otherKey, otherValue⟩ := other
      rw [List.pairwise_cons] at firstAscending secondAscending
      -- Each head is found in the other list, so neither key can be smaller.
      have inSecond : (key, value) ∈ (otherKey, otherValue) :: others :=
        mem_of_find?_eq_some ((agree key).symm.trans (by simp [find?]))
      have inFirst : (otherKey, otherValue) ∈ (key, value) :: rest :=
        mem_of_find?_eq_some ((agree otherKey).trans (by simp [find?]))
      have same : (key, value) = (otherKey, otherValue) := by
        rcases List.mem_cons.1 inSecond with equal | later
        · exact equal
        · rcases List.mem_cons.1 inFirst with equal | laterFirst
          · exact equal.symm
          · have up := secondAscending.1 _ later
            have down := firstAscending.1 _ laterFirst
            simp only at up down
            omega
      cases same
      congr 1
      refine ih firstAscending.2 secondAscending.2 fun wanted => ?_
      have here := agree wanted
      by_cases equal : rank wanted = rank key
      · have absent : ∀ {entries : List (κ × ν)},
            (∀ entry ∈ entries, rank key < rank entry.1) → find? wanted entries = none := by
          intro entries above
          induction entries with
          | nil => rfl
          | cons entry entries inner =>
            have up := above entry List.mem_cons_self
            have ranks : rank wanted ≠ rank entry.1 := by omega
            have rest := inner fun entry member => above entry (List.mem_cons_of_mem _ member)
            obtain ⟨entryKey, entryValue⟩ := entry
            simpa [find?, ranks] using rest
        rw [absent firstAscending.1, absent secondAscending.1]
      · simpa [find?, equal] using here

/-- Tables with the same lookups are equal. -/
@[ext]
theorem ext {first second : Table κ ν} (agree : ∀ key, first.get? key = second.get? key) :
    first = second := by
  obtain ⟨firstEntries, firstAscending⟩ := first
  obtain ⟨secondEntries, secondAscending⟩ := second
  have equal := entries_eq_of_find? firstAscending secondAscending agree
  cases equal
  rfl

end Table

end Handover
