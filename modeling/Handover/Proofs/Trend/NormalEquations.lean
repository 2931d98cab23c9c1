import Handover.Trend.Polynomial
import Handover.Proofs.Trend.Elimination
import Mathlib.Algebra.BigOperators.Intervals

/-!
# Normal equations

The coefficients of the normal equations are power sums of the sample times.  For up to three
unknowns their closed forms show how large the pivots are: none of them falls below a fixed
bound, however many samples there are, so these equations always have a solution.
-/

namespace Handover.Trend

open Scalar Extended

variable {K : Type} [Field K]

/-! ## Power sums -/

/-- The sum of a power of the sample times. -/
def powerSum (K : Type) [Field K] (n k : Nat) : K :=
  ∑ t ∈ Finset.range n, (t : K) ^ k

theorem powerSum_succ (n k : Nat) : powerSum K (n + 1) k = powerSum K n k + (n : K) ^ k :=
  Finset.sum_range_succ _ n

theorem powerSum_zero (n : Nat) : powerSum K n 0 = n := by
  simp [powerSum]

section ClosedForms

variable [CharZero K]

theorem powerSum_one (n : Nat) : powerSum K n 1 = n * (n - 1) / 2 := by
  induction n with
  | zero => simp [powerSum]
  | succ n ih =>
      rw [powerSum_succ, ih]
      push_cast
      field_simp
      ring

theorem powerSum_two (n : Nat) : powerSum K n 2 = n * (n - 1) * (2 * n - 1) / 6 := by
  induction n with
  | zero => simp [powerSum]
  | succ n ih =>
      rw [powerSum_succ, ih]
      push_cast
      field_simp
      ring

theorem powerSum_three (n : Nat) : powerSum K n 3 = (n * (n - 1) / 2) ^ 2 := by
  induction n with
  | zero => simp [powerSum]
  | succ n ih =>
      rw [powerSum_succ, ih]
      push_cast
      field_simp
      ring

theorem powerSum_four (n : Nat) :
    powerSum K n 4 = n * (n - 1) * (2 * n - 1) * (3 * n ^ 2 - 3 * n - 1) / 30 := by
  induction n with
  | zero => simp [powerSum]
  | succ n ih =>
      rw [powerSum_succ, ih]
      push_cast
      field_simp
      ring

end ClosedForms

/-! ## Exact equations -/

/-- The powers of the sample times. -/
def powers (K : Type) [Field K] (n k : Nat) : List K :=
  (List.range n).map fun t : Nat => (t : K) ^ k

/-- The normal equation of a power of the sample times. -/
def gramRow (samples : List K) (terms k : Nat) : Equation K where
  coefficients := (List.range terms).map fun j => powerSum K samples.length (k + j)
  constant := inner (powers K samples.length k) samples

theorem sum_map_range (f : Nat → K) (n : Nat) :
    ((List.range n).map f).sum = ∑ t ∈ Finset.range n, f t := by
  induction n with
  | zero => rfl
  | succ n ih => rw [List.sum_range_succ, ih, Finset.sum_range_succ]

theorem inner_map_range (f g : Nat → K) (n : Nat) :
    inner ((List.range n).map f) ((List.range n).map g) = ∑ t ∈ Finset.range n, f t * g t := by
  rw [inner, List.zipWith_map, List.zipWith_self, sum_map_range]

theorem inner_powers (n k j : Nat) :
    inner (powers K n k) (powers K n j) = powerSum K n (k + j) := by
  rw [powers, powers, inner_map_range, powerSum]
  exact Finset.sum_congr rfl fun t _ => (pow_add _ _ _).symm

section Exact

variable [LinearOrder K] [FloorSemiring K] [Exponential K]

theorem timePowers_number (n k : Nat) :
    (timePowers n k : List (Extended K)) = (powers K n k).map number := by
  rw [timePowers, powers, List.map_map]
  exact List.map_congr_left fun t _ => by rw [ofNat_def, power_number, Function.comp_apply]

theorem moment_number (samples powers : List K) (terms : Nat) :
    moment (samples.map number) (powers.map number) terms =
      (number (inner powers samples) : Extended K) := by
  rw [moment]
  split_ifs
  · exact laneDot_number powers samples
  · exact dot_number powers samples

/-- The normal equations of samples that are numbers. -/
theorem normalEquations_exact (samples : List K) (terms : Nat) :
    (normalEquations (samples.map number) terms : List (Equation (Extended K))) =
      ((List.range terms).map (gramRow samples terms)).map Equation.exact := by
  rw [normalEquations, List.length_map]
  simp only [List.map_map]
  refine List.map_congr_left fun k _ => ?_
  simp only [Function.comp_apply, normalEquation, timePowers_number, moment_number, Equation.exact,
    gramRow, List.map_map, Equation.mk.injEq, and_true]
  exact List.map_congr_left fun j _ => by
    simp only [Function.comp_apply, timePowers_number, blockDot_number, inner_powers]

end Exact

/-! ## Pivots of the normal equations -/

section Pivots

variable [LinearOrder K] [IsStrictOrderedRing K] {samples : List K}

/-- What is a quarter at least is no small pivot. -/
theorem enough_of_quarter {x : K} (large : 1 / 4 ≤ |x|) : 1 / 10 ^ 12 ≤ |x| :=
  le_trans (by norm_num) large

/-- The only pivot is the number of samples. -/
theorem stable_gram_one (many : 1 ≤ samples.length) :
    Stable 1 ((List.range 1).map (gramRow samples 1)) := by
  have large : (1 : K) ≤ samples.length := Nat.one_le_cast.mpr many
  refine stable_one (enough_of_quarter ?_)
  change 1 / 4 ≤ |powerSum K samples.length 0|
  rw [powerSum_zero]
  linarith [le_abs_self (samples.length : K)]

/-- Two equations in two unknowns, by their coefficients. -/
theorem stable_two_of_coefficients {a b c d e f : K}
    (first : |c| ≤ |a| → 1 / 4 ≤ |a| ∧ 1 / 4 ≤ |d - c / a * b|)
    (second : |a| ≤ |c| → 1 / 4 ≤ |c| ∧ 1 / 4 ≤ |b - a / c * d|) :
    Stable 2 [(⟨[a, b], e⟩ : Equation K), ⟨[c, d], f⟩] :=
  stable_two (fun le => (first le).imp enough_of_quarter enough_of_quarter)
    fun le => (second le).imp enough_of_quarter enough_of_quarter

/-- Either equation may be the pivot equation. -/
theorem stable_gram_two (many : 2 ≤ samples.length) :
    Stable 2 ((List.range 2).map (gramRow samples 2)) := by
  have large : (2 : K) ≤ samples.length := by exact_mod_cast many
  have zero := powerSum_zero (K := K) samples.length
  have one := powerSum_one (K := K) samples.length
  have two := powerSum_two (K := K) samples.length
  generalize (samples.length : K) = x at large zero one two
  have positive : 0 < x := by linarith
  have below : 0 < x - 1 := by linarith
  have square : 4 ≤ x * x := by nlinarith
  have count : 1 / 4 ≤ |powerSum K samples.length 0| := by
    rw [zero]
    linarith [le_abs_self x]
  refine stable_two_of_coefficients (fun _ => ⟨count, ?_⟩) fun le => ⟨count.trans le, ?_⟩
  · have value : x * (x - 1) * (2 * x - 1) / 6 - x * (x - 1) / 2 / x * (x * (x - 1) / 2) =
        x * (x * x - 1) / 12 := by
      field_simp
      ring
    change 1 / 4 ≤ |powerSum K samples.length 2 - powerSum K samples.length 1 /
      powerSum K samples.length 0 * powerSum K samples.length 1|
    rw [zero, one, two, value]
    refine le_trans ?_ (le_abs_self _)
    nlinarith
  · have value : x * (x - 1) / 2 - x / (x * (x - 1) / 2) * (x * (x - 1) * (2 * x - 1) / 6) =
        -(x * (x + 1) / 6) := by
      field_simp
      ring
    change 1 / 4 ≤ |powerSum K samples.length 1 - powerSum K samples.length 0 /
      powerSum K samples.length 1 * powerSum K samples.length 2|
    rw [zero, one, two, value, abs_neg]
    refine le_trans ?_ (le_abs_self _)
    nlinarith

/-- Without the first unknown, either of two equations may be the pivot equation. -/
theorem stable_reduced {n : Nat} (many : 3 ≤ n) (e f : K) :
    Stable 2 [(⟨[powerSum K n 1 - powerSum K n 0 / powerSum K n 2 * powerSum K n 3,
        powerSum K n 2 - powerSum K n 0 / powerSum K n 2 * powerSum K n 4], e⟩ : Equation K),
      ⟨[powerSum K n 2 - powerSum K n 1 / powerSum K n 2 * powerSum K n 3,
        powerSum K n 3 - powerSum K n 1 / powerSum K n 2 * powerSum K n 4], f⟩] := by
  have large : (3 : K) ≤ n := by exact_mod_cast many
  rw [powerSum_zero, powerSum_one, powerSum_two, powerSum_three, powerSum_four]
  generalize (n : K) = x at large
  have positive : 0 < x := by linarith
  have below : 0 < x - 1 := by linarith
  have farther : 0 < x - 2 := by linarith
  have odd : 0 < 2 * x - 1 := by linarith
  have oddNonzero : x * 2 - 1 ≠ 0 := by linarith
  have first : x * (x - 1) / 2 - x / (x * (x - 1) * (2 * x - 1) / 6) * (x * (x - 1) / 2) ^ 2 =
      -(x * (x - 1) * (x + 1) / (2 * (2 * x - 1))) := by
    field_simp
    ring
  have second : x * (x - 1) * (2 * x - 1) / 6 - x / (x * (x - 1) * (2 * x - 1) / 6) *
      (x * (x - 1) * (2 * x - 1) * (3 * x ^ 2 - 3 * x - 1) / 30) =
        -(x * (8 * x - 11) * (x + 1) / 30) := by
    field_simp
    ring
  have third : x * (x - 1) * (2 * x - 1) / 6 - x * (x - 1) / 2 / (x * (x - 1) * (2 * x - 1) / 6) *
      (x * (x - 1) / 2) ^ 2 = -(x * (x - 1) * (x - 2) * (x + 1) / (12 * (2 * x - 1))) := by
    field_simp
    ring
  have fourth : (x * (x - 1) / 2) ^ 2 - x * (x - 1) / 2 / (x * (x - 1) * (2 * x - 1) / 6) *
      (x * (x - 1) * (2 * x - 1) * (3 * x ^ 2 - 3 * x - 1) / 30) =
        -(x * (x - 1) * (x - 2) * (x + 1) / 20) := by
    field_simp
    ring
  rw [first, second, third, fourth]
  have size : 1 / 4 ≤ |-(x * (x - 1) * (x + 1) / (2 * (2 * x - 1)))| := by
    rw [abs_neg, abs_of_pos (by positivity), div_le_div_iff₀ (by norm_num) (by positivity)]
    nlinarith [mul_pos positive below]
  refine stable_two_of_coefficients (fun _ => ⟨size, ?_⟩) fun le => ⟨size.trans le, ?_⟩
  · have value : -(x * (x - 1) * (x - 2) * (x + 1) / 20) -
        -(x * (x - 1) * (x - 2) * (x + 1) / (12 * (2 * x - 1))) /
          -(x * (x - 1) * (x + 1) / (2 * (2 * x - 1))) * -(x * (8 * x - 11) * (x + 1) / 30) =
        -(x * (x + 1) * (x - 2) * (x + 2) / 180) := by
      field_simp
      ring
    rw [value, abs_neg, abs_of_pos (by positivity)]
    nlinarith [mul_pos positive farther]
  · have value : -(x * (8 * x - 11) * (x + 1) / 30) -
        -(x * (x - 1) * (x + 1) / (2 * (2 * x - 1))) /
          -(x * (x - 1) * (x - 2) * (x + 1) / (12 * (2 * x - 1))) *
            -(x * (x - 1) * (x - 2) * (x + 1) / 20) = x * (x + 1) * (x + 2) / 30 := by
      field_simp
      ring
    rw [value, abs_of_pos (by positivity)]
    nlinarith [mul_pos positive positive]

/-- The last equation has the largest leading coefficient, whatever the number of samples. -/
theorem stable_gram_three (many : 3 ≤ samples.length) :
    Stable 3 ((List.range 3).map (gramRow samples 3)) := by
  have large : (3 : K) ≤ samples.length := by exact_mod_cast many
  have zero := powerSum_zero (K := K) samples.length
  have one := powerSum_one (K := K) samples.length
  have two := powerSum_two (K := K) samples.length
  have reduced := stable_reduced (K := K) many
  generalize (samples.length : K) = x at large zero one two
  have positive : 0 < x := by linarith
  have below : 0 < x - 1 := by linarith
  have farther : 0 < x - 2 := by linarith
  have oneLess : |powerSum K samples.length 1| < |powerSum K samples.length 2| := by
    have gap : x * (x - 1) * (2 * x - 1) / 6 = x * (x - 1) / 2 + x * (x - 1) * (x - 2) / 3 := by
      ring
    rw [one, two, gap, abs_of_pos (by positivity), abs_of_pos (by positivity)]
    exact lt_add_of_pos_right _ (by positivity)
  have zeroLess : |powerSum K samples.length 0| ≤ |powerSum K samples.length 1| := by
    have gap : x * (x - 1) / 2 = x + x * (x - 3) / 2 := by ring
    have nonneg : 0 ≤ x - 3 := by linarith
    rw [zero, one, gap, abs_of_pos positive, abs_of_pos (by positivity)]
    exact le_add_of_nonneg_right (by positivity)
  have enough : 1 / 4 ≤ |powerSum K samples.length 2| := by
    refine le_trans ?_ (zeroLess.trans oneLess.le)
    rw [zero]
    linarith [le_abs_self x]
  exact stable_three (zeroLess.trans_lt oneLess) oneLess (enough_of_quarter enough) (reduced _ _)

end Pivots

end Handover.Trend
