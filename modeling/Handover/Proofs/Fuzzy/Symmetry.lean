import Handover.Proofs.Fuzzy.Range

/-!
# Centroids of symmetric terms

The sample points of a range are their own mirror image.  If a term of the output looks the
same from both ends of the range, then so do its degrees at the sample points, and the centroid
of that term alone is the middle of the range, however many points there are.
-/

namespace Handover.Fuzzy

open Scalar Extended

variable {K : Type} [Field K]

/-! ## Mirrored points -/

/-- Each point and its mirror image add up to the total. -/
theorem moment_mirror {xs weights : List K} (paired : xs.length = weights.length) (total : K) :
    moment (xs.map (total - ·)) weights = total * weights.sum - moment xs weights := by
  induction xs generalizing weights with
  | nil =>
      cases weights with
      | nil => simp
      | cons _ _ => cases paired
  | cons x xs ih =>
      cases weights with
      | nil => cases paired
      | cons w weights =>
          rw [List.map_cons, moment_cons, moment_cons, List.sum_cons, ih (Nat.succ.inj paired)]
          ring

theorem moment_reverse {xs weights : List K} (paired : xs.length = weights.length) :
    moment xs.reverse weights.reverse = moment xs weights := by
  rw [moment, moment, ← List.reverse_zipWith paired, List.sum_reverse]

/-- Weights that read the same from both ends balance mirrored points in their middle. -/
theorem two_mul_moment {xs weights : List K} {total : K} (paired : xs.length = weights.length)
    (mirrored : xs.map (total - ·) = xs.reverse) (palindrome : weights.reverse = weights) :
    2 * moment xs weights = total * weights.sum := by
  have same := calc moment xs weights
      _ = moment xs.reverse weights.reverse := (moment_reverse paired).symm
      _ = moment (xs.map (total - ·)) weights := by rw [mirrored, palindrome]
      _ = total * weights.sum - moment xs weights := moment_mirror paired total
  linear_combination same

variable [LinearOrder K] [IsStrictOrderedRing K] [FloorSemiring K] [Exponential K]

/-- The sample points of a checked range are numbers, and their own mirror image. -/
theorem Domain.samples_mirrored {domain : Domain (Extended K)} (checked : domain.check = .ok ()) :
    ∃ (low high : K) (xs : List K), domain.min = number low ∧ domain.max = number high ∧
      domain.samples = xs.map number ∧ xs.map (low + high - ·) = xs.reverse := by
  obtain ⟨low, width, _, lowest, highest, spaced⟩ := samples_spaced checked
  refine ⟨low, _, _, lowest, highest, samples_eq_map spaced, ?_⟩
  apply List.ext_getElem
  · simp
  · intro index inside _
    rw [List.length_map, List.length_map, List.length_range] at inside
    have le : index ≤ domain.points.toNat - 1 := Nat.le_sub_one_of_lt inside
    simp only [List.getElem_map, List.getElem_range, List.getElem_reverse, List.length_map,
      List.length_range, Nat.cast_sub le]
    ring

theorem Domain.contains_of_mem_samples {domain : Domain (Extended K)}
    (checked : domain.check = .ok ()) {x : Extended K} (sampled : x ∈ domain.samples) :
    domain.Contains x := by
  obtain ⟨low, high, lowest, highest, between⟩ := samples_between checked
  exact (contains_iff lowest highest).mpr (between x sampled)

/-- The degree of a term is the same at a point of the range and at its mirror image. -/
def SymmetricOn (domain : Domain (Extended K)) (shape : Membership (Extended K)) : Prop :=
  ∀ x, domain.Contains x → shape.degree (domain.min + domain.max - x) = shape.degree x

/-- A bell in the middle of a range is symmetric. -/
theorem symmetricOn_gaussian {domain : Domain (Extended K)} {low high sigma : K}
    (lowest : domain.min = number low) (highest : domain.max = number high) (positive : 0 < sigma)
    (top : K) :
    SymmetricOn domain (.gaussian (number ((low + high) / 2)) (number sigma) (number top)) := by
  intro x inside
  obtain ⟨n, rfl, _⟩ := (Domain.contains_iff lowest highest).mp inside
  rw [lowest, highest, number_add, number_sub]
  simp only [Membership.degree, Membership.height, Membership.bell_number _ _ _ positive]
  have square : (low + high - n - (low + high) / 2) * (low + high - n - (low + high) / 2) =
      (n - (low + high) / 2) * (n - (low + high) / 2) := by
    ring
  rw [square]

/-! ## One active term -/

/-- Only the term at one place is active, up to a level. -/
structure OnlyActive (activation : List (Extended K)) (place : Nat) (level : K) : Prop where
  active : activation[place]? = some (number level)
  others : ∀ other strength, activation[other]? = some strength → other ≠ place → strength ≤ 0

omit [IsStrictOrderedRing K] in
theorem foldl_greater_of_nonpos {xs : List (Extended K)} (idle : ∀ x ∈ xs, x ≤ 0)
    {top : Extended K} (nonneg : 0 ≤ top) : xs.foldl greater top = top := by
  induction xs with
  | nil => rfl
  | cons x rest ih =>
      rw [List.forall_mem_cons] at idle
      have below : x ≤ top := Extended.le_trans idle.1 nonneg
      rw [List.foldl_cons, greater_eq_left below, ih idle.2]

omit [IsStrictOrderedRing K] in
/-- The only value that may be positive is the greatest. -/
theorem foldl_greater_single {xs : List (Extended K)} {place : Nat} {x : Extended K}
    (found : xs[place]? = some x) (nonneg : 0 ≤ x)
    (others : ∀ other y, xs[other]? = some y → other ≠ place → y ≤ 0) :
    xs.foldl greater 0 = x := by
  obtain ⟨inside, same⟩ := List.getElem?_eq_some_iff.mp found
  have before : ∀ y ∈ xs.take place, y ≤ 0 := by
    intro y member
    obtain ⟨other, bound, rfl⟩ := List.mem_take_iff_getElem.mp member
    exact others other _ (List.getElem?_eq_getElem _) (by omega)
  have after : ∀ y ∈ xs.drop (place + 1), y ≤ 0 := by
    intro y member
    obtain ⟨other, bound, rfl⟩ := List.mem_drop_iff_getElem.mp member
    exact others _ _ (List.getElem?_eq_getElem _) (by omega)
  have split : xs = xs.take place ++ x :: xs.drop (place + 1) := by
    rw [← same, List.cons_getElem_drop_succ, List.take_append_drop]
  rw [split, List.foldl_append, foldl_greater_of_nonpos before (Extended.le_refl nofun),
    List.foldl_cons, greater_eq_right nonneg, foldl_greater_of_nonpos after nonneg]

namespace TypeOne

/-- The height at `x` of a term that is clipped at its strength. -/
def clip (x : Extended K) (pair : Term (Membership (Extended K)) × Extended K) : Extended K :=
  lesser pair.2 (pair.1.membership.degree x)

omit [IsStrictOrderedRing K] in
theorem joined_eq_clipped (terms : List (Term (Membership (Extended K))))
    (activation : List (Extended K)) (x : Extended K) :
    joined terms activation x = ((terms.zip activation).map (clip x)).foldl greater 0 :=
  List.foldl_map.symm

variable {terms : List (Term (Membership (Extended K)))}
  {term : Term (Membership (Extended K))} {activation : List (Extended K)} {place : Nat} {level : K}

/-- The joined output of one active term is that term, clipped. -/
theorem joined_single (checked : ∀ term ∈ terms, term.membership.check = .ok ())
    (named : terms[place]? = some term) (only : OnlyActive activation place level)
    (nonneg : 0 ≤ level) (x : K) :
    joined terms activation (number x) =
      lesser (number level) (term.membership.degree (number x)) := by
  have both : (terms.zip activation)[place]? = some (term, number level) :=
    List.getElem?_zip_eq_some.mpr ⟨named, only.active⟩
  have clipped : ((terms.zip activation).map (clip (number x)))[place]? =
      some (clip (number x) (term, number level)) := by
    rw [List.getElem?_map, both, Option.map_some]
  rw [joined_eq_clipped]
  apply foldl_greater_single clipped
  · obtain ⟨d, same, least, _⟩ :=
      Membership.degree_isDegree (checked term (List.mem_of_getElem? named)) x
    rw [clip, same, lesser_number, zero_def, number_le]
    exact le_min nonneg least
  · intro other y found apart
    rw [List.getElem?_map, Option.map_eq_some_iff] at found
    obtain ⟨pair, listed, rfl⟩ := found
    obtain ⟨member, active⟩ := List.getElem?_zip_eq_some.mp listed
    have idle := only.others other pair.2 active apart
    have degree := Membership.degree_isDegree (checked pair.1 (List.mem_of_getElem? member)) x
    exact Extended.le_trans (lesser_le (ne_notNumber_of_le idle).1 degree.numeric).1 idle

variable {definition : TypeOneDefinition (Extended K)} {system : TypeOneSystem (Extended K)}

/-- In exact arithmetic the centroid of one symmetric term is the middle of the range, wherever
the term is clipped and however many sample points there are. -/
theorem symmetric_term_centred (built : definition.build = .ok system)
    (named : system.output.terms[place]? = some term)
    (symmetric : SymmetricOn system.output.domain term.membership) (positive : 0 < level)
    (only : OnlyActive activation place level) :
    defuzzify system activation = .error (.emptyOutput system.output.name) ∨
      defuzzify system activation =
        .ok ((system.output.domain.min + system.output.domain.max) / two) := by
  have builds := Definition.builds_of_build built
  have valid : system.output.Valid := builds.output ▸ builds.validOutput
  have checked : ∀ term ∈ system.output.terms, term.membership.check = .ok () :=
    fun term member => Membership.check_of_validate (valid.terms term member)
  obtain ⟨low, high, xs, lowest, highest, points, mirrored⟩ :=
    Domain.samples_mirrored valid.domain
  choose height drawn _ _ using joined_isDegree checked activation
  have even (x : K) (sampled : x ∈ xs) : height (low + high - x) = height x := by
    have listed : number x ∈ system.output.domain.samples :=
      points ▸ List.mem_map_of_mem sampled
    have same := symmetric _ (Domain.contains_of_mem_samples valid.domain listed)
    rw [lowest, highest, number_add, number_sub] at same
    apply number.inj
    rw [← drawn, ← drawn, joined_single checked named only positive.le,
      joined_single checked named only positive.le, same]
  have palindrome : (xs.map height).reverse = xs.map height := by
    rw [← List.map_reverse, ← mirrored, List.map_map]
    exact List.map_congr_left even
  have paired : xs.length = (xs.map height).length := (List.length_map height).symm
  have heights : (xs.map number).map (joined system.output.terms activation) =
      (xs.map height).map number := by
    rw [List.map_map, List.map_map]
    exact List.map_congr_left fun x _ => drawn x
  rw [defuzzify_eq, points, heights]
  cases balanced : weightedMean? (xs.map number) ((xs.map height).map number) with
  | none => exact .inl rfl
  | some mean =>
      obtain ⟨heavy, rfl⟩ := (weightedMean?_eq_some paired).mp balanced
      have twice := two_mul_moment paired mirrored palindrome
      have middle : moment xs (xs.map height) / (xs.map height).sum = (low + high) / 2 := by
        rw [div_eq_div_iff (pos_of_heavy heavy).ne' two_ne_zero, ← twice, mul_comm]
      right
      rw [middle, lowest, highest, number_add, two_def, number_div _ two_ne_zero]

end TypeOne

/-- An output with a bell in the middle of its range, and a term at its lower end. -/
def bellOutput : TypeOneDefinition (Extended ℚ) :=
  { inputs := [⟨"signal", ⟨0, 1, 2⟩, [⟨"ANY", .trapezoidal 0 0 1 1⟩]⟩]
    output := ⟨"trigger", ⟨0, 1, 4⟩, [⟨"NO", .triangular 0 0 1⟩,
      ⟨"HALF", .gaussian (number ((0 + 1) / 2)) (number (1 / 4)) (number 1)⟩]⟩
    rules := [.ofPairs [("signal", "ANY")] "HALF"] }

theorem TypeOne.symmetric_term_centred_bell :
    ∃ system, bellOutput.build = .ok system ∧
      defuzzify system [0, number (1 / 3)] = .ok (number (1 / 2)) := by
  have evaluated : bellOutput.build.toOption.any (fun system =>
      (defuzzify system [0, number (1 / 3)]).toOption.any fun _ => true) = true := by
    decide +kernel
  obtain ⟨system, built, answered⟩ := exists_of_any_toOption evaluated
  obtain ⟨score, answered, _⟩ := exists_of_any_toOption answered
  have output : system.output = bellOutput.output := (Definition.builds_of_build built).output
  have named : system.output.terms[1]? =
      some ⟨"HALF", .gaussian (number ((0 + 1) / 2)) (number (1 / 4)) (number 1)⟩ := by
    rw [output]
    rfl
  have bounds : system.output.domain.min = number 0 ∧ system.output.domain.max = number 1 := by
    rw [output]
    exact ⟨rfl, rfl⟩
  have symmetric := symmetricOn_gaussian bounds.1 bounds.2 (by norm_num : (0 : ℚ) < 1 / 4) 1
  have only : OnlyActive [0, number (1 / 3 : ℚ)] 1 (1 / 3) := by
    constructor
    · rfl
    · rintro (_ | _ | other) strength listed apart
      · cases listed
        exact Extended.le_refl nofun
      · exact absurd rfl apart
      · cases listed
  refine ⟨system, built, ?_⟩
  rcases symmetric_term_centred built named symmetric (by norm_num) only with empty | centred
  · cases empty.symm.trans answered
  · rw [centred, bounds.1, bounds.2, number_add, two_def, number_div _ two_ne_zero, zero_add]

end Handover.Fuzzy
