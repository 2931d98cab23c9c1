import Handover.Proofs.Trend.LeastSquares
import Handover.Proofs.Trend.NormalEquations

/-!
# Prediction by least squares

In exact arithmetic the normal equations of a polynomial up to the second degree are solved
whenever there are enough samples, and the solution is the polynomial nearest to them.  So every
list of samples is continued, by the value of that polynomial at the next time.
-/

namespace Handover.Trend

open Scalar Extended Polynomial

variable {K : Type} [Field K]

/-! ## Polynomials by their coefficients -/

/-- The polynomial with the given coefficients, from the lowest order. -/
noncomputable def ofCoefficients : List K → K[X]
  | [] => 0
  | c :: rest => ofCoefficients rest * X + C c

theorem natDegree_ofCoefficients (coefficients : List K) :
    (ofCoefficients coefficients).natDegree ≤ coefficients.length - 1 := by
  induction coefficients with
  | nil => simp [ofCoefficients]
  | cons c rest ih =>
      cases rest with
      | nil => simp [ofCoefficients]
      | cons d rest =>
          rw [ofCoefficients, natDegree_add_C]
          exact natDegree_mul_le.trans (add_le_add ih natDegree_X_le)

/-- A power of the times weighs the values of a polynomial as power sums weigh its
coefficients. -/
theorem sum_eval_ofCoefficients (coefficients : List K) (n k : Nat) :
    ∑ t ∈ Finset.range n, (t : K) ^ k * (ofCoefficients coefficients).eval (t : K) =
      inner ((List.range coefficients.length).map fun j => powerSum K n (k + j)) coefficients := by
  induction coefficients generalizing k with
  | nil => simp [ofCoefficients]
  | cons c rest ih =>
      have shifted : (List.range rest.length).map (fun j => powerSum K n (k + 1 + j)) =
          (List.range rest.length).map fun j => powerSum K n (k + (j + 1)) :=
        List.map_congr_left fun j _ => by rw [Nat.succ_add_eq_add_succ]
      rw [List.length_cons, List.range_succ_eq_map, List.map_cons, List.map_map, inner_cons,
        Function.comp_def, ← shifted, ← ih (k + 1), add_zero, powerSum, Finset.sum_mul,
        ← Finset.sum_add_distrib]
      refine Finset.sum_congr rfl fun t _ => ?_
      rw [ofCoefficients, eval_add, eval_mul, eval_X, eval_C]
      ring

/-- A power of the times weighs the samples. -/
theorem inner_powers_samples (samples : List K) (k : Nat) :
    inner (powers K samples.length k) samples =
      ∑ t ∈ Finset.range samples.length, (t : K) ^ k * sampleAt samples t := by
  have listed : samples = (List.range samples.length).map (sampleAt samples) := by
    apply List.ext_getElem (by rw [List.length_map, List.length_range])
    intro t inside _
    simp only [List.getElem_map, List.getElem_range, sampleAt, List.getD_eq_getElem?_getD,
      List.getElem?_eq_getElem inside, Option.getD_some]
  conv_lhs => arg 2; rw [listed]
  rw [powers, inner_map_range]

/-- Coefficients that solve the normal equations are those of a fit. -/
theorem fits_of_holds {samples coefficients : List K} {degree : Nat}
    (length : coefficients.length = degree + 1)
    (holds : ∀ k ≤ degree, (gramRow samples (degree + 1) k).Holds coefficients) :
    Fits samples degree (ofCoefficients coefficients) where
  degree_le := by
    have bounded := natDegree_ofCoefficients coefficients
    rwa [length, Nat.add_sub_cancel] at bounded
  orthogonal k le := by
    have solved := holds k le
    rw [Equation.Holds, gramRow, ← length, ← sum_eval_ofCoefficients,
      inner_powers_samples] at solved
    simp only [mul_sub, Finset.sum_sub_distrib, solved, sub_self]

section Exact

variable [LinearOrder K] [FloorSemiring K] [Exponential K]

theorem evaluatePolynomial_number (coefficients : List K) (t : K) :
    evaluatePolynomial (coefficients.map number) (number t) =
      (number ((ofCoefficients coefficients).eval t) : Extended K) := by
  induction coefficients with
  | nil => simp [evaluatePolynomial, ofCoefficients, zero_def]
  | cons c rest ih =>
      rw [evaluatePolynomial] at ih ⊢
      rw [List.map_cons, List.foldr_cons, ih, number_mul, number_add, ofCoefficients, eval_add,
        eval_mul, eval_X, eval_C]

variable [IsStrictOrderedRing K] {samples : List K}

theorem exists_fit_of_stable {degree : UInt64} {top : Nat} (terms : termCount degree = top + 1)
    (many : top < samples.length)
    (stable : Stable (top + 1) ((List.range (top + 1)).map (gramRow samples (top + 1)))) :
    ∃ coefficients : List K,
      fitPolynomial? (samples.map number) degree = some (coefficients.map (number (K := K))) ∧
        Fits samples top (ofCoefficients coefficients) := by
  have square : ((List.range (top + 1)).map (gramRow samples (top + 1))).length = top + 1 := by
    rw [List.length_map, List.length_range]
  have sized : ∀ row ∈ (List.range (top + 1)).map (gramRow samples (top + 1)),
      row.Over (top + 1) := by
    rw [List.forall_mem_map]
    exact fun k _ => by rw [Equation.Over, gramRow, List.length_map, List.length_range]
  obtain ⟨solution, solved⟩ := stable.exists_solution square
  obtain ⟨coefficients, rfl, length, holds⟩ := solve?_sound square sized solved
  rw [List.forall_mem_map] at holds
  refine ⟨coefficients, ?_, fits_of_holds length fun k le =>
    holds k (List.mem_range.mpr (Nat.lt_succ_of_le le))⟩
  rw [fitPolynomial?, terms, List.length_map, if_neg (by omega), normalEquations_exact, solved]

omit [Field K] [LinearOrder K] [FloorSemiring K] [Exponential K] [IsStrictOrderedRing K] in
theorem eq_of_le_two {degree : UInt64} (low : degree ≤ 2) :
    degree = 0 ∨ degree = 1 ∨ degree = 2 := by
  have low : degree.toNat ≤ 2 := UInt64.le_iff_toNat_le.mp low
  simp only [← UInt64.toNat_inj]
  change degree.toNat = 0 ∨ degree.toNat = 1 ∨ degree.toNat = 2
  omega

/-- Up to the second degree, enough samples have a fit, and it is found. -/
theorem exists_fit {degree : UInt64} (low : degree ≤ 2) (many : degree.toNat < samples.length) :
    ∃ coefficients : List K,
      fitPolynomial? (samples.map number) degree = some (coefficients.map (number (K := K))) ∧
        Fits samples degree.toNat (ofCoefficients coefficients) := by
  rcases eq_of_le_two low with rfl | rfl | rfl
  · exact exists_fit_of_stable rfl many (stable_gram_one many)
  · exact exists_fit_of_stable rfl many (stable_gram_two many)
  · exact exists_fit_of_stable rfl many (stable_gram_three many)

/-- Up to the second degree, only a lack of samples is a reason not to fit a polynomial. -/
theorem fitPolynomial?_eq_none_iff {degree : UInt64} (low : degree ≤ 2) :
    (fitPolynomial? (samples.map number) degree : Option (List (Extended K))) = none ↔
      samples.length < degree.toNat + 1 := by
  have terms : termCount degree = degree.toNat + 1 := by
    rcases eq_of_le_two low with rfl | rfl | rfl <;> rfl
  constructor
  · intro missing
    by_contra! many
    obtain ⟨coefficients, found, _⟩ := exists_fit low many
    cases missing.symm.trans found
  · intro few
    rw [fitPolynomial?, terms, List.length_map, if_pos few]

/-! ## Continued samples -/

theorem fitDegree_le (n : Nat) : fitDegree n ≤ 2 := by
  unfold fitDegree
  split_ifs <;> decide

theorem fitDegree_lt {n : Nat} (positive : 0 < n) : (fitDegree n).toNat < n := by
  unfold fitDegree
  split_ifs with one three
  · exact positive
  · change 1 < n
    omega
  · change 2 < n
    omega

/-- Samples are continued by a fit of the degree that belongs to their number. -/
theorem exists_prediction (nonempty : samples ≠ []) :
    ∃ p : K[X], Fits samples (fitDegree samples.length).toNat p ∧
      predictNext? (samples.map number) =
        some (number (p.eval (samples.length : K)) : Extended K) := by
  have positive : 0 < samples.length := List.length_pos_iff.mpr nonempty
  obtain ⟨coefficients, found, fits⟩ := exists_fit (fitDegree_le _) (fitDegree_lt positive)
  refine ⟨_, fits, ?_⟩
  have inhabited : (samples.map (number (K := K))).isEmpty = false := by simpa using nonempty
  rw [predictNext?, inhabited, List.length_map, found, ofNat_def, Option.map_some,
    evaluatePolynomial_number]
  rfl

/-- The prediction is the value of any fit. -/
theorem Fits.prediction {p : K[X]} (fits : Fits samples (fitDegree samples.length).toNat p)
    (nonempty : samples ≠ []) :
    predictNext? (samples.map number) =
      some (number (p.eval (samples.length : K)) : Extended K) := by
  obtain ⟨q, found, predicted⟩ := exists_prediction nonempty
  rw [predicted, found.eq_of_leastSquares (fitDegree_lt (List.length_pos_iff.mpr nonempty))
    fits.leastSquares]

/-- The prediction is the continuation of the least-squares polynomial, and there always is one:
up to the second degree, a polynomial is fitted as soon as there are enough samples.  So samples
on a polynomial are continued exactly, and the prediction is shifted and scaled along with the
samples. -/
theorem prediction_least_squares (samples : List K) :
    (samples ≠ [] → ∃ p : K[X], LeastSquares samples (fitDegree samples.length).toNat p ∧
      (∀ q, LeastSquares samples (fitDegree samples.length).toNat q → q = p) ∧
      predictNext? (samples.map number) =
        some (number (p.eval (samples.length : K)) : Extended K)) ∧
    (∀ degree : UInt64, degree ≤ 2 →
      ((fitPolynomial? (samples.map number) degree : Option (List (Extended K))) = none ↔
        samples.length < degree.toNat + 1)) ∧
    (samples ≠ [] → ∀ p : K[X], p.natDegree ≤ (fitDegree samples.length).toNat →
      (∀ t, ∀ inside : t < samples.length, samples[t] = p.eval (t : K)) →
        predictNext? (samples.map number) =
          some (number (p.eval (samples.length : K)) : Extended K)) ∧
    (∀ c : K, predictNext? ((samples.map (· + c)).map number) =
      (predictNext? (samples.map number) : Option (Extended K)).map (· + number c)) ∧
    ∀ c : K, predictNext? ((samples.map (c * ·)).map number) =
      (predictNext? (samples.map number) : Option (Extended K)).map (number c * ·) := by
  refine ⟨fun nonempty => ?_, fun degree low => fitPolynomial?_eq_none_iff low,
    fun nonempty p bounded lies => ?_, fun c => ?_, fun c => ?_⟩
  · obtain ⟨p, fits, predicted⟩ := exists_prediction nonempty
    exact ⟨p, fits.leastSquares, fun q nearest => fits.eq_of_leastSquares
      (fitDegree_lt (List.length_pos_iff.mpr nonempty)) nearest, predicted⟩
  · refine Fits.prediction (fits_of_eval bounded fun t inside => ?_) nonempty
    rw [sampleAt, List.getD_eq_getElem?_getD, List.getElem?_eq_getElem inside, Option.getD_some,
      lies t inside]
  · cases samples with
    | nil => rfl
    | cons first rest =>
        obtain ⟨p, fits, predicted⟩ := exists_prediction (List.cons_ne_nil first rest)
        have shifted := fits.add_constant c
        rw [← List.length_map (f := (· + c))] at shifted
        rw [shifted.prediction (List.cons_ne_nil _ _), predicted, List.length_map, eval_add, eval_C,
          Option.map_some, number_add]
  · cases samples with
    | nil => rfl
    | cons first rest =>
        obtain ⟨p, fits, predicted⟩ := exists_prediction (List.cons_ne_nil first rest)
        have scaled := fits.scale c
        rw [← List.length_map (f := (c * ·))] at scaled
        rw [scaled.prediction (List.cons_ne_nil _ _), predicted, List.length_map, eval_mul, eval_C,
          Option.map_some, number_mul]

end Exact

theorem prediction_least_squares_squares :
    let samples : List ℚ := [0, 1, 4, 9]
    (∃ p : ℚ[X], LeastSquares samples 2 p ∧
      predictNext? (samples.map number) = some (number (p.eval 4))) ∧
    fitPolynomial? (samples.map number) 2 ≠ none ∧
    predictNext? (samples.map number) = some (number 16) := by
  intro samples
  have nonempty : samples ≠ [] := List.cons_ne_nil _ _
  obtain ⟨predicted, enough, lying, _⟩ := prediction_least_squares samples
  obtain ⟨p, nearest, _, value⟩ := predicted nonempty
  have lies : ∀ t, ∀ inside : t < samples.length, samples[t] = (X ^ 2 : ℚ[X]).eval (t : ℚ) := by
    intro t inside
    rw [eval_pow, eval_X]
    match t, inside with
    | 0, _ => rfl
    | 1, _ => rfl
    | 2, _ => rfl
    | 3, _ => rfl
  have square := lying nonempty (X ^ 2) (natDegree_X_pow_le 2) lies
  refine ⟨⟨p, nearest, value⟩, (enough 2 (by decide)).not.mpr (by decide), square.trans ?_⟩
  rw [eval_pow, eval_X]
  rfl

end Handover.Trend
