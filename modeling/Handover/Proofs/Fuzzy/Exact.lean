import Handover.Fuzzy.Footprint
import Handover.Proofs.Numeric.Extended

/-!
# Shapes and ranges in exact arithmetic

In exact arithmetic the parameters of a shape that passes its checks are numbers.
A range that passes its checks moves every value onto a number, and onto a sample
point if the value does not lie strictly inside.
-/

namespace Handover.Fuzzy

open Scalar Extended

variable {K : Type} [Field K] [LinearOrder K] [FloorSemiring K] [Exponential K]

theorem Footprint.tolerance_def : (tolerance : Extended K) = number (1 / 10 ^ 9) := by
  rw [tolerance, ofDecimal_def, Int.cast_one]

/-! ## Shapes -/

namespace Membership

theorem clampUnit_number (x : K) :
    clampUnit (number x) = number (max 0 (min 1 x)) := by
  unfold clampUnit
  simp only [zero_def, one_def, number_lt]
  split_ifs with negative large
  · rw [max_eq_left ((min_le_right 1 x).trans negative.le)]
  · rw [min_eq_left large.le, max_eq_right zero_le_one]
  · rw [min_eq_right (not_lt.mp large), max_eq_right (not_lt.mp negative)]

theorem checkBell_number (mean sigma top : K) :
    checkBell (number mean : Extended K) (number sigma) (number top) = .ok () ↔
      0 < sigma ∧ 0 < top ∧ top ≤ 1 := by
  simp only [checkBell, isFinite_number, zero_def, one_def, number_lt, number_le, true_and]
  split_ifs with infinite width height
  · cases infinite
  · simp [width, height]
  · simp [height]
  · simp [width]

/-- The parameters of a bell that passes its checks. -/
theorem numbers_of_checkBell {mean sigma top : Extended K}
    (checked : checkBell mean sigma top = .ok ()) :
    ∃ m s t : K, mean = number m ∧ sigma = number s ∧ top = number t ∧ 0 < s ∧ 0 < t ∧ t ≤ 1 := by
  have passed := checked
  unfold checkBell at passed
  split_ifs at passed with finite width height
  rw [Bool.not_eq_true', Bool.not_eq_false, isFinite_iff] at finite
  rcases finite with ⟨m, rfl⟩
  rcases (isFinite_iff sigma).mp width.1 with ⟨s, rfl⟩
  cases top with
  | number t => exact ⟨m, s, t, rfl, rfl, rfl, (checkBell_number m s t).mp checked⟩
  | plusInfinity => cases height.2
  | minusInfinity => cases height.1
  | notNumber => cases height.1

/-- The vertices of a triangle that passes its checks. -/
theorem numbers_of_check_triangular {left peak right : Extended K}
    (checked : (triangular left peak right).check = .ok ()) :
    ∃ l p r : K, left = number l ∧ peak = number p ∧ right = number r ∧ l ≤ p ∧ p ≤ r := by
  rw [check] at checked
  split_ifs at checked with finite ordered
  simp only [isFinite_iff] at finite
  rcases finite with ⟨⟨l, rfl⟩, ⟨p, rfl⟩, ⟨r, rfl⟩⟩
  exact ⟨l, p, r, rfl, rfl, rfl, (number_le l p).mp ordered.1, (number_le p r).mp ordered.2.1⟩

/-- The vertices of a trapezoid that passes its checks. -/
theorem numbers_of_check_trapezoidal {left leftTop rightTop right : Extended K}
    (checked : (trapezoidal left leftTop rightTop right).check = .ok ()) :
    ∃ l lt rt r : K, left = number l ∧ leftTop = number lt ∧ rightTop = number rt ∧
      right = number r ∧ l ≤ lt ∧ lt ≤ rt ∧ rt ≤ r := by
  rw [check] at checked
  split_ifs at checked with finite ordered
  simp only [isFinite_iff] at finite
  rcases finite with ⟨⟨l, rfl⟩, ⟨lt, rfl⟩, ⟨rt, rfl⟩, ⟨r, rfl⟩⟩
  simp only [number_le] at ordered
  exact ⟨l, lt, rt, r, rfl, rfl, rfl, rfl, ordered⟩

/-- What is not a number has no number as its degree either. -/
theorem degree_notNumber {shape : Membership (Extended K)} (checked : shape.check = .ok ()) :
    shape.degree notNumber = notNumber := by
  cases shape with
  | gaussian mean sigma top =>
      rcases numbers_of_checkBell checked with ⟨m, s, t, rfl, rfl, rfl, _⟩
      rfl
  | lowShoulder mean sigma top =>
      rcases numbers_of_checkBell checked with ⟨m, s, t, rfl, rfl, rfl, _⟩
      rfl
  | highShoulder mean sigma top =>
      rcases numbers_of_checkBell checked with ⟨m, s, t, rfl, rfl, rfl, _⟩
      rfl
  | triangular left peak right =>
      rcases numbers_of_check_triangular checked with ⟨l, p, r, rfl, rfl, rfl, _⟩
      rfl
  | trapezoidal left leftTop rightTop right =>
      rcases numbers_of_check_trapezoidal checked with ⟨l, lt, rt, r, rfl, rfl, rfl, rfl, _⟩
      rfl

variable [IsStrictOrderedRing K]

/-- The value of a bell at a number. -/
theorem bell_number (mean top x : K) {sigma : K} (positive : 0 < sigma) :
    bell (number mean) (number sigma) (number top) (number x) =
      number (top * Exponential.exponential
        (-((x - mean) * (x - mean)) / (2 * sigma * sigma))) := by
  have nonzero : 2 * sigma * sigma ≠ 0 := by positivity
  simp only [bell, two_def, number_sub, number_mul, number_neg, number_div _ nonzero, exp_def]

end Membership

/-! ## Ranges -/

namespace Domain

variable {domain : Domain (Extended K)}

/-- The bounds of a range that passes its checks are numbers in order, and it has
a sample point at either of them. -/
theorem numbers_of_check (checked : domain.check = .ok ()) :
    ∃ low high, domain.min = number low ∧ domain.max = number high ∧ low < high ∧
      2 ≤ domain.points.toNat := by
  unfold check at checked
  split_ifs at checked with finite ordered enough
  rcases (isFinite_iff _).mp finite.1 with ⟨low, lowest⟩
  rcases (isFinite_iff _).mp finite.2 with ⟨high, highest⟩
  rw [lowest, highest, number_le, not_le] at ordered
  exact ⟨low, high, lowest, highest, ordered, UInt64.le_iff_toNat_le.mp (UInt64.not_lt.mp enough)⟩

theorem check_number {low high : K} (ordered : low < high) {points : UInt64}
    (enough : ¬points < 2) :
    (⟨number low, number high, points⟩ : Domain (Extended K)).check = .ok () := by
  simp [check, ordered, enough]

theorem step_number {low high : K} (lowest : domain.min = number low)
    (highest : domain.max = number high) :
    domain.step = number ((high - low) / (Nat.max (domain.points.toNat - 1) 1 : Nat)) := by
  have steps : ((Nat.max (domain.points.toNat - 1) 1 : Nat) : K) ≠ 0 :=
    Nat.cast_ne_zero.mpr (Nat.ne_of_gt (Nat.le_max_right _ 1))
  simp only [step, lowest, highest, number_sub, ofNat_def, number_div _ steps]

/-- Sample points are numbers. -/
theorem sample_number (checked : domain.check = .ok ()) (index : Nat) :
    ∃ x, domain.sample index = number x := by
  rcases numbers_of_check checked with ⟨low, high, lowest, highest, _, _⟩
  simp only [sample, step_number lowest highest, lowest, highest, ofNat_def, number_mul,
    number_add]
  split
  · exact ⟨high, rfl⟩
  · exact ⟨_, rfl⟩

theorem number_of_mem_samples (checked : domain.check = .ok ()) {x : Extended K}
    (member : x ∈ domain.samples) : ∃ n, x = number n := by
  rcases List.mem_map.mp member with ⟨index, _, rfl⟩
  exact sample_number checked index

theorem min_mem_samples (checked : domain.check = .ok ()) : domain.min ∈ domain.samples := by
  rcases numbers_of_check checked with ⟨low, high, lowest, highest, _, enough⟩
  refine List.mem_map.mpr ⟨0, List.mem_range.mpr (by omega), ?_⟩
  rw [sample, if_neg (by omega)]
  simp only [step_number lowest highest, lowest, ofNat_def, number_mul, number_add,
    Nat.cast_zero, zero_mul, add_zero]

theorem max_mem_samples (checked : domain.check = .ok ()) : domain.max ∈ domain.samples := by
  rcases numbers_of_check checked with ⟨_, _, _, _, _, enough⟩
  refine List.mem_map.mpr ⟨domain.points.toNat - 1, List.mem_range.mpr (by omega), ?_⟩
  rw [sample, if_pos (by omega)]

/-- Every value is moved onto a number, and onto a sample point unless it lies
strictly inside the range. -/
theorem clamp?_number (checked : domain.check = .ok ()) (value : Extended K) :
    ∃ x, domain.clamp? value = some (number x) ∧
      (¬(domain.min < value ∧ value < domain.max) → number x ∈ domain.samples) := by
  have first := min_mem_samples checked
  have last := max_mem_samples checked
  rcases numbers_of_check checked with ⟨low, high, lowest, highest, ordered, _⟩
  rw [lowest] at first
  rw [highest] at last
  simp only [clamp?, lowest, highest, number_le, ordered.le, if_true]
  split
  · exact ⟨low, rfl, fun _ => first⟩
  · next numeric =>
    split
    · exact ⟨low, rfl, fun _ => first⟩
    · next notBelow =>
      split
      · exact ⟨high, rfl, fun _ => last⟩
      · next notAbove =>
        cases value with
        | number x =>
            rw [number_lt, not_lt] at notBelow notAbove
            refine ⟨x, rfl, fun outside => ?_⟩
            rw [number_lt, number_lt, not_and_or, not_lt, not_lt] at outside
            rcases outside with below | above
            · rwa [le_antisymm below notBelow]
            · rwa [le_antisymm notAbove above]
        | minusInfinity => exact absurd rfl notBelow
        | plusInfinity => exact absurd rfl notAbove
        | notNumber => exact absurd rfl numeric

end Domain

end Handover.Fuzzy
