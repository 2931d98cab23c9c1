import Mathlib.Algebra.Polynomial.Eval.Degree
import Mathlib.Algebra.Polynomial.Roots
import Mathlib.Algebra.Order.BigOperators.Ring.Finset
import Mathlib.Tactic.LinearCombination

/-!
# Least squares

Of all polynomials up to a degree, those whose residuals are orthogonal to the powers of the
sample times are nearest to the samples.  If there are more samples than the degree, then there
is no other one that is as near.
-/

namespace Handover.Trend

open Polynomial

variable {K : Type} [Field K]

/-! ## Residuals -/

/-- The sample at a time. -/
def sampleAt (samples : List K) (t : Nat) : K :=
  samples.getD t 0

/-- Sum of the squared distances of the samples from a polynomial at their times. -/
def squaredResiduals (samples : List K) (p : K[X]) : K :=
  ∑ t ∈ Finset.range samples.length, (sampleAt samples t - p.eval (t : K)) ^ 2

/-- A polynomial up to a degree whose residuals are orthogonal to the powers of the times. -/
structure Fits (samples : List K) (degree : Nat) (p : K[X]) : Prop where
  degree_le : p.natDegree ≤ degree
  orthogonal : ∀ k ≤ degree,
    ∑ t ∈ Finset.range samples.length, (t : K) ^ k * (sampleAt samples t - p.eval (t : K)) = 0

/-- A polynomial up to a degree that is nearest to the samples. -/
structure LeastSquares [LinearOrder K] (samples : List K) (degree : Nat) (p : K[X]) : Prop where
  degree_le : p.natDegree ≤ degree
  least : ∀ q : K[X], q.natDegree ≤ degree →
    squaredResiduals samples p ≤ squaredResiduals samples q

variable {samples : List K} {degree : Nat} {p q : K[X]}

theorem natDegree_sub_le (first : p.natDegree ≤ degree) (second : q.natDegree ≤ degree) :
    (p - q).natDegree ≤ degree :=
  (natDegree_sub_le_of_le first second).trans (max_self degree).le

/-- The residuals of a fit are orthogonal to all polynomials up to its degree. -/
theorem Fits.orthogonal_eval (fits : Fits samples degree p) (bounded : q.natDegree ≤ degree) :
    ∑ t ∈ Finset.range samples.length, q.eval (t : K) * (sampleAt samples t - p.eval (t : K)) =
      0 := by
  simp only [eval_eq_sum_range' (Nat.lt_succ_of_le bounded), Finset.sum_mul, mul_assoc]
  rw [Finset.sum_comm]
  refine Finset.sum_eq_zero fun k member => ?_
  rw [← Finset.mul_sum, fits.orthogonal k (Nat.le_of_lt_succ (Finset.mem_range.mp member)),
    mul_zero]

/-- Any other polynomial is farther from the samples by its distance from a fit. -/
theorem Fits.squaredResiduals_eq (fits : Fits samples degree p) (bounded : q.natDegree ≤ degree) :
    squaredResiduals samples q = squaredResiduals samples p +
      ∑ t ∈ Finset.range samples.length, ((p - q).eval (t : K)) ^ 2 := by
  have cross := fits.orthogonal_eval (natDegree_sub_le fits.degree_le bounded)
  have expand : squaredResiduals samples q = squaredResiduals samples p +
      ∑ t ∈ Finset.range samples.length, ((p - q).eval (t : K)) ^ 2 +
        2 * ∑ t ∈ Finset.range samples.length,
          (p - q).eval (t : K) * (sampleAt samples t - p.eval (t : K)) := by
    rw [squaredResiduals, squaredResiduals, Finset.mul_sum, ← Finset.sum_add_distrib,
      ← Finset.sum_add_distrib]
    refine Finset.sum_congr rfl fun t _ => ?_
    rw [eval_sub]
    ring
  rw [expand, cross, mul_zero, add_zero]

variable [LinearOrder K] [IsStrictOrderedRing K]

/-- A polynomial of a degree below the number of sample times is determined by its values
there. -/
theorem eq_zero_of_eval_range {n : Nat} (few : p.natDegree < n)
    (zero : ∀ t ∈ Finset.range n, p.eval (t : K) = 0) : p = 0 := by
  refine eq_zero_of_natDegree_lt_card_of_eval_eq_zero' p
    ((Finset.range n).map Nat.castEmbedding) ?_ ?_
  · exact Finset.forall_mem_map.mpr zero
  · rwa [Finset.card_map, Finset.card_range]

theorem Fits.leastSquares (fits : Fits samples degree p) : LeastSquares samples degree p where
  degree_le := fits.degree_le
  least q bounded := by
    rw [fits.squaredResiduals_eq bounded]
    exact le_add_of_nonneg_right (Finset.sum_nonneg fun t _ => sq_nonneg _)

/-- No other polynomial is as near as a fit. -/
theorem Fits.eq_of_leastSquares (fits : Fits samples degree p) (many : degree < samples.length)
    (nearest : LeastSquares samples degree q) : q = p := by
  have apart := fits.squaredResiduals_eq nearest.degree_le
  have near := nearest.least p fits.degree_le
  have nonneg : ∀ t ∈ Finset.range samples.length, 0 ≤ ((p - q).eval (t : K)) ^ 2 :=
    fun t _ => sq_nonneg _
  have none : ∑ t ∈ Finset.range samples.length, ((p - q).eval (t : K)) ^ 2 = 0 :=
    le_antisymm (by linarith) (Finset.sum_nonneg nonneg)
  have bounded : (p - q).natDegree < samples.length :=
    (natDegree_sub_le fits.degree_le nearest.degree_le).trans_lt many
  have equal : p - q = 0 := eq_zero_of_eval_range bounded fun t member =>
    pow_eq_zero_iff two_ne_zero |>.mp ((Finset.sum_eq_zero_iff_of_nonneg nonneg).mp none t member)
  exact (sub_eq_zero.mp equal).symm

/-! ## Changed samples -/

omit [LinearOrder K] [IsStrictOrderedRing K] in
theorem sampleAt_map (change : K → K) {t : Nat} (inside : t ∈ Finset.range samples.length) :
    sampleAt (samples.map change) t = change (sampleAt samples t) := by
  rw [Finset.mem_range] at inside
  simp only [sampleAt, List.getD_eq_getElem?_getD, List.getElem?_map,
    List.getElem?_eq_getElem inside, Option.map_some, Option.getD_some]

omit [LinearOrder K] [IsStrictOrderedRing K] in
/-- Samples on a polynomial are fitted by it. -/
theorem fits_of_eval (bounded : p.natDegree ≤ degree)
    (lies : ∀ t < samples.length, sampleAt samples t = p.eval (t : K)) : Fits samples degree p where
  degree_le := bounded
  orthogonal k _ := Finset.sum_eq_zero fun t member => by
    rw [lies t (Finset.mem_range.mp member), sub_self, mul_zero]

omit [LinearOrder K] [IsStrictOrderedRing K] in
theorem Fits.add_constant (fits : Fits samples degree p) (c : K) :
    Fits (samples.map (· + c)) degree (p + C c) where
  degree_le := (natDegree_add_le_of_degree_le fits.degree_le (by simp))
  orthogonal k le := by
    rw [List.length_map, ← fits.orthogonal k le]
    refine Finset.sum_congr rfl fun t member => ?_
    rw [sampleAt_map _ member, eval_add, eval_C, add_sub_add_right_eq_sub]

omit [LinearOrder K] [IsStrictOrderedRing K] in
theorem Fits.scale (fits : Fits samples degree p) (c : K) :
    Fits (samples.map (c * ·)) degree (C c * p) where
  degree_le := (natDegree_C_mul_le c p).trans fits.degree_le
  orthogonal k le := by
    rw [List.length_map]
    have scaled := congrArg (c * ·) (fits.orthogonal k le)
    simp only [Finset.mul_sum, mul_zero] at scaled
    rw [← scaled]
    refine Finset.sum_congr rfl fun t member => ?_
    rw [sampleAt_map _ member, eval_mul, eval_C]
    ring

end Handover.Trend
