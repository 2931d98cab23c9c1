import Handover.Table

/-!
# The entries of a table

How many values pass a test, and which values a table holds.  Changing one entry
changes the count by what the test says of that entry before and after, whatever
else the table holds.
-/

namespace Handover.Table

universe u v

variable {κ : Type u} {ν : Type v} [Keyed κ]

/-- Number of values that pass a test. -/
def count (table : Table κ ν) (test : ν → Bool) : Nat :=
  table.entries.countP fun entry => test entry.2

/-- A list of entries with ascending keys holds at most one entry of a key, so
leaving that key out lowers the count by one at most. -/
theorem countP_filter_ne (key : κ) (test : ν → Bool) {entries : List (κ × ν)}
    (ascending : entries.Pairwise fun left right => rank left.1 < rank right.1) :
    (entries.filter fun entry => rank entry.1 != rank key).countP (fun entry => test entry.2) +
        ((find? key entries).any test).toNat =
      entries.countP fun entry => test entry.2 := by
  induction entries with
  | nil => rfl
  | cons head rest ih =>
      rcases head with ⟨other, value⟩
      rw [List.pairwise_cons] at ascending
      rw [find?, List.countP_cons]
      by_cases same : rank key = rank other
      · have untouched : rest.filter (fun entry => rank entry.1 != rank key) = rest := by
          rw [List.filter_eq_self]
          intro entry member
          have above : rank other < rank entry.1 := ascending.1 entry member
          rw [bne_iff_ne, same]
          exact Nat.ne_of_gt above
        rw [List.filter_cons_of_neg (by simp [same]), untouched, if_pos same]
        cases passes : test value <;> simp [passes]
      · have kept : (rank (other, value).1 != rank key) = true := by
          rw [bne_iff_ne]
          exact fun equal => same equal.symm
        rw [List.filter_cons, if_pos kept, if_neg same, List.countP_cons, ← ih ascending.2]
        omega

theorem count_erase (table : Table κ ν) (key : κ) (test : ν → Bool) :
    (table.erase key).count test + ((table.get? key).any test).toNat = table.count test :=
  countP_filter_ne key test table.ascending

/-- Tables that agree on all other keys count alike up to the entry of one
key. -/
theorem count_of_others {before after : Table κ ν} {key : κ}
    (others : ∀ other, other ≠ key → after.get? other = before.get? other) (test : ν → Bool) :
    after.count test + ((before.get? key).any test).toNat =
      before.count test + ((after.get? key).any test).toNat := by
  have rest : after.erase key = before.erase key := by
    apply Table.ext
    intro other
    by_cases same : other = key
    · rw [same, get?_erase_self, get?_erase_self]
    · rw [get?_erase_of_ne _ same, get?_erase_of_ne _ same, others other same]
  have afterCount := count_erase after key test
  have beforeCount := count_erase before key test
  rw [rest] at afterCount
  omega

theorem nodup_keys (table : Table κ ν) : table.keys.Nodup := by
  rw [keys, List.nodup_iff_pairwise_ne, List.pairwise_map]
  refine table.ascending.imp ?_
  intro left right below same
  rw [same] at below
  exact Nat.lt_irrefl _ below

theorem mem_keys_iff {table : Table κ ν} {key : κ} :
    key ∈ table.keys ↔ (table.get? key).isSome := by
  rw [keys, List.mem_map, Option.isSome_iff_exists]
  constructor
  · rintro ⟨⟨found, value⟩, member, rfl⟩
    exact ⟨value, mem_entries_iff.mp member⟩
  · rintro ⟨value, found⟩
    exact ⟨(key, value), mem_entries_iff.mpr found, rfl⟩

theorem length_keys (table : Table κ ν) : table.keys.length = table.size :=
  List.length_map _

/-- Entries of different keys can be stored in either order. -/
theorem insert_comm (table : Table κ ν) {key other : κ} (distinct : key ≠ other)
    (value new : ν) :
    (table.insert key value).insert other new = (table.insert other new).insert key value := by
  ext wanted : 1
  by_cases first : wanted = key
  · rw [first, get?_insert_of_ne _ distinct, get?_insert_self, get?_insert_self]
  · rw [get?_insert_of_ne (table.insert other new) first]
    by_cases second : wanted = other
    · rw [second, get?_insert_self, get?_insert_self]
    · rw [get?_insert_of_ne _ second, get?_insert_of_ne _ first, get?_insert_of_ne _ second]

/-- Of two values stored under the same key the later one stays. -/
theorem insert_insert (table : Table κ ν) (key : κ) (value new : ν) :
    (table.insert key value).insert key new = table.insert key new := by
  ext wanted : 1
  by_cases same : wanted = key
  · rw [same, get?_insert_self, get?_insert_self]
  · rw [get?_insert_of_ne _ same, get?_insert_of_ne _ same, get?_insert_of_ne _ same]

/-! ## Values -/

theorem mem_values_iff {table : Table κ ν} {value : ν} :
    value ∈ table.values ↔ ∃ key, table.get? key = some value := by
  rw [values, List.mem_map]
  constructor
  · rintro ⟨⟨key, found⟩, member, rfl⟩
    exact ⟨key, mem_entries_iff.mp member⟩
  · rintro ⟨key, found⟩
    exact ⟨(key, value), mem_entries_iff.mpr found, rfl⟩

theorem mem_values_of_insert {table : Table κ ν} {key : κ} {new value : ν}
    (member : value ∈ (table.insert key new).values) : value = new ∨ value ∈ table.values := by
  rw [mem_values_iff] at member ⊢
  rcases member with ⟨other, found⟩
  by_cases same : other = key
  · rw [same, get?_insert_self] at found
    exact .inl (Option.some.inj found).symm
  · rw [get?_insert_of_ne _ same] at found
    exact .inr ⟨other, found⟩

theorem mem_values_of_modify {table : Table κ ν} {key : κ} {change : ν → ν} {value : ν}
    (member : value ∈ (table.modify key change).values) :
    value ∈ table.values ∨ ∃ old ∈ table.values, value = change old := by
  unfold modify at member
  split at member
  · next old found =>
    rcases mem_values_of_insert member with rfl | member
    · exact .inr ⟨old, mem_values_iff.mpr ⟨key, found⟩, rfl⟩
    · exact .inl member
  · exact .inl member

theorem get?_map {μ : Type v} (table : Table κ ν) (change : ν → μ) (key : κ) :
    (table.map change).get? key = (table.get? key).map change := by
  change find? key (table.entries.map _) = (find? key table.entries).map change
  induction table.entries with
  | nil => rfl
  | cons head rest ih =>
      rw [List.map_cons, find?, find?, ih]
      split <;> rfl

theorem values_map {μ : Type v} (table : Table κ ν) (change : ν → μ) :
    (table.map change).values = table.values.map change := by
  simp [values, map, Function.comp_def]

section Map

variable {μ : Type v} (table : Table κ ν) (change : ν → μ)

theorem map_map {ξ : Type v} (again : μ → ξ) :
    (table.map change).map again = table.map (again ∘ change) := by
  ext key : 1
  rw [get?_map, get?_map, get?_map, Option.map_map]

theorem map_insert (key : κ) (value : ν) :
    (table.insert key value).map change = (table.map change).insert key (change value) := by
  ext wanted : 1
  by_cases same : wanted = key
  · rw [same, get?_map, get?_insert_self, get?_insert_self, Option.map_some]
  · rw [get?_map, get?_insert_of_ne _ same, get?_insert_of_ne _ same, get?_map]

/-- A test that reads nothing of what was changed keeps the same entries. -/
theorem map_filter {keep : κ → ν → Bool} {keepChanged : κ → μ → Bool}
    (blind : ∀ key value, keepChanged key (change value) = keep key value) :
    (table.filter keep).map change = (table.map change).filter keepChanged := by
  ext wanted : 1
  rw [get?_map, get?_filter, get?_filter, get?_map]
  cases table.get? wanted with
  | none => rfl
  | some value =>
      rw [Option.map_some, Option.filter_some, Option.filter_some, blind]
      split <;> rfl

theorem map_erase (key : κ) : (table.erase key).map change = (table.map change).erase key :=
  map_filter table change fun _ _ => rfl

theorem map_modify (edit : ν → ν) (editChanged : μ → μ)
    (commutes : ∀ value, editChanged (change value) = change (edit value)) (key : κ) :
    (table.modify key edit).map change = (table.map change).modify key editChanged := by
  ext wanted : 1
  by_cases same : wanted = key
  · rw [same, get?_map, get?_modify_self, get?_modify_self, get?_map, Option.map_map,
      Option.map_map]
    exact congrArg (Option.map · _) (funext fun value => (commutes value).symm)
  · rw [get?_map, get?_modify_of_ne _ same, get?_modify_of_ne _ same, get?_map]

end Map

end Handover.Table
