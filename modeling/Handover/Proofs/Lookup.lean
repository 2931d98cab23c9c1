import Mathlib.Data.List.Nodup

/-!
# Looking up by key

In a list in which no key occurs twice, the first entry under a key is the only one.
-/

namespace Handover

universe u v

variable {ρ : Type u} {κ : Type v} [BEq κ] [LawfulBEq κ] {key : ρ → κ} {xs ys : List ρ}

/-- Under a unique key there is one entry to find. -/
theorem find?_eq_some_iff_of_nodup (unique : (xs.map key).Nodup) {wanted : κ} {x : ρ} :
    xs.find? (fun x => key x == wanted) = some x ↔ x ∈ xs ∧ key x = wanted := by
  have bears {y : ρ} (found : xs.find? (fun x => key x == wanted) = some y) : key y = wanted :=
    beq_iff_eq.mp (List.find?_some (p := fun x => key x == wanted) found)
  constructor
  · exact fun found => ⟨List.mem_of_find?_eq_some found, bears found⟩
  · rintro ⟨member, same⟩
    obtain ⟨y, found⟩ := Option.isSome_iff_exists.mp
      (List.find?_isSome (p := fun x => key x == wanted) |>.mpr ⟨x, member, beq_iff_eq.mpr same⟩)
    rw [found, List.inj_on_of_nodup_map unique (List.mem_of_find?_eq_some found) member
      ((bears found).trans same.symm)]

theorem find?_eq_of_perm (listed : xs.Perm ys) (unique : (xs.map key).Nodup) (wanted : κ) :
    xs.find? (fun x => key x == wanted) = ys.find? (fun x => key x == wanted) := by
  ext x
  rw [find?_eq_some_iff_of_nodup unique,
    find?_eq_some_iff_of_nodup ((listed.map key).nodup_iff.mp unique), listed.mem_iff]

end Handover
