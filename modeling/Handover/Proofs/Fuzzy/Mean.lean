import Handover.Fuzzy.TypeReduction
import Handover.Proofs.Numeric.Extended

/-!
# Weighted means in exact arithmetic

The weighted mean of numbers is a quotient of two sums, unless the weights sum up
to nothing.  If no weight is negative, then the mean stays between any bounds of
the points.  The weights that type reduction tries are numbers again, so each of
its estimates is such a mean.
-/

namespace Handover.Fuzzy

open Scalar Extended

variable {K : Type}

/-- A list whose entries are numbers is a list of numbers. -/
theorem exists_numbers {P : K → Prop} {xs : List (Extended K)}
    (numbers : ∀ x ∈ xs, ∃ n, x = number n ∧ P n) :
    ∃ ns : List K, xs = ns.map number ∧ ∀ n ∈ ns, P n := by
  induction xs with
  | nil => exact ⟨[], rfl, nofun⟩
  | cons x rest ih =>
      rw [List.forall_mem_cons] at numbers
      rcases numbers.1 with ⟨n, rfl, first⟩
      rcases ih numbers.2 with ⟨ns, rfl, others⟩
      exact ⟨n :: ns, rfl, List.forall_mem_cons.mpr ⟨first, others⟩⟩

variable [Field K]

/-- The sum of points times weights. -/
def moment (xs weights : List K) : K :=
  (List.zipWith (· * ·) xs weights).sum

@[simp]
theorem moment_nil : moment ([] : List K) [] = 0 :=
  rfl

@[simp]
theorem moment_cons (x w : K) (xs weights : List K) :
    moment (x :: xs) (w :: weights) = x * w + moment xs weights :=
  List.sum_cons

variable [LinearOrder K]

/-- A weight that counts is positive. -/
theorem pos_of_heavy [IsStrictOrderedRing K] {weight : K} (heavy : 1 / 2 ^ 52 < weight) :
    0 < weight :=
  lt_trans (by positivity) heavy

section Sums

variable [FloorSemiring K] [Exponential K]

theorem foldl_moments (xs weights : List K) (paired : xs.length = weights.length) (a b : K) :
    ((xs.map number).zip (weights.map number)).foldl
        (fun sums point => (sums.1 + point.1 * point.2, sums.2 + point.2))
        ((number a, number b) : Extended K × Extended K) =
      (number (a + moment xs weights), number (b + weights.sum)) := by
  induction xs generalizing weights a b with
  | nil =>
      cases weights with
      | nil => simp
      | cons _ _ => cases paired
  | cons x xs ih =>
      cases weights with
      | nil => cases paired
      | cons w weights =>
          simp only [List.map_cons, List.zip_cons_cons, List.foldl_cons, number_mul, number_add]
          rw [ih weights (Nat.succ.inj paired), moment_cons, List.sum_cons, add_assoc, add_assoc]

theorem moments_number {xs weights : List K} (paired : xs.length = weights.length) :
    moments ((xs.map number).zip (weights.map number)) =
      ((number (moment xs weights), number weights.sum) : Extended K × Extended K) := by
  have sums := foldl_moments xs weights paired 0 0
  rwa [zero_add, zero_add] at sums

variable [IsStrictOrderedRing K]

/-- Weights that count have a positive sum, and the mean is a quotient of sums. -/
theorem weightedMean?_eq_some {xs weights : List K} (paired : xs.length = weights.length)
    {mean : Extended K} :
    weightedMean? (xs.map number) (weights.map number) = some mean ↔
      1 / 2 ^ 52 < weights.sum ∧ mean = number (moment xs weights / weights.sum) := by
  simp only [weightedMean?, moments_number paired, epsilon_def, number_lt]
  split
  · next heavy =>
    rw [number_div _ (pos_of_heavy heavy).ne', Option.some.injEq, eq_comm, and_iff_right heavy]
  · next light =>
    exact iff_of_false (Option.some_ne_none _).symm fun counts => light counts.1

end Sums

section Bounds

variable [IsStrictOrderedRing K] {xs weights : List K}

/-- Points between two bounds have a moment between those of the bounds. -/
theorem moment_between {low high : K} (paired : xs.length = weights.length)
    (inside : ∀ x ∈ xs, low ≤ x ∧ x ≤ high) (nonneg : ∀ w ∈ weights, 0 ≤ w) :
    low * weights.sum ≤ moment xs weights ∧ moment xs weights ≤ high * weights.sum := by
  induction xs generalizing weights with
  | nil =>
      cases weights with
      | nil => simp
      | cons _ _ => cases paired
  | cons x xs ih =>
      cases weights with
      | nil => cases paired
      | cons w weights =>
          rw [List.forall_mem_cons] at inside nonneg
          have others := ih (Nat.succ.inj paired) inside.2 nonneg.2
          have least := mul_le_mul_of_nonneg_right inside.1.1 nonneg.1
          have most := mul_le_mul_of_nonneg_right inside.1.2 nonneg.1
          rw [moment_cons, List.sum_cons, mul_add, mul_add]
          exact ⟨add_le_add least others.1, add_le_add most others.2⟩

/-- A mean lies between the bounds of its points. -/
theorem weightedMean?_between [FloorSemiring K] [Exponential K] {low high : K}
    (paired : xs.length = weights.length) (inside : ∀ x ∈ xs, low ≤ x ∧ x ≤ high)
    (nonneg : ∀ w ∈ weights, 0 ≤ w) {mean : Extended K}
    (balanced : weightedMean? (xs.map number) (weights.map number) = some mean) :
    ∃ m, mean = number m ∧ low ≤ m ∧ m ≤ high := by
  rcases (weightedMean?_eq_some paired).mp balanced with ⟨heavy, rfl⟩
  have sum := pos_of_heavy heavy
  have between := moment_between paired inside nonneg
  exact ⟨_, rfl, (le_div_iff₀ sum).mpr between.1, (div_le_iff₀ sum).mpr between.2⟩

end Bounds

/-! ## Weights of type reduction -/

section Weights

variable {α β : Type}

theorem switchedWeights_map (change : α → β) (side : End) (lower upper : List α) (index : Nat) :
    switchedWeights side (lower.map change) (upper.map change) index =
      (switchedWeights side lower upper index).map change := by
  cases side <;> simp [switchedWeights, List.map_take, List.map_drop]

theorem length_switchedWeights (side : End) {lower upper : List α}
    (paired : lower.length = upper.length) (index : Nat) :
    (switchedWeights side lower upper index).length = upper.length := by
  cases side <;> simp [switchedWeights, paired] <;> omega

theorem mem_switchedWeights {side : End} {lower upper : List α} {index : Nat} {w : α}
    (member : w ∈ switchedWeights side lower upper index) : w ∈ lower ∨ w ∈ upper := by
  cases side with
  | left =>
      rcases List.mem_append.mp member with high | low
      · exact .inr (List.mem_of_mem_take high)
      · exact .inl (List.mem_of_mem_drop low)
  | right =>
      rcases List.mem_append.mp member with low | high
      · exact .inl (List.mem_of_mem_take low)
      · exact .inr (List.mem_of_mem_drop high)

end Weights

/-- Half way between two lists of numbers. -/
def halfway (lower upper : List K) : List K :=
  List.zipWith middle lower upper

omit [LinearOrder K] in
theorem length_halfway {lower upper : List K} (paired : lower.length = upper.length) :
    (halfway lower upper).length = upper.length := by
  simp [halfway, paired]

omit [LinearOrder K] in
theorem mem_halfway {lower upper : List K} {w : K} (member : w ∈ halfway lower upper) :
    ∃ low ∈ lower, ∃ high ∈ upper, w = (low + high) / 2 := by
  rw [halfway, ← List.map_uncurry_zip_eq_zipWith] at member
  rcases List.mem_map.mp member with ⟨⟨low, high⟩, both, rfl⟩
  have both := List.of_mem_zip both
  exact ⟨low, both.1, high, both.2, rfl⟩

theorem middleWeights_number [FloorSemiring K] [Exponential K] (lower upper : List K) :
    (middleWeights (lower.map number) (upper.map number) : List (Extended K)) =
      (halfway lower upper).map number := by
  simp only [middleWeights, halfway, middle, List.zipWith_map, List.map_zipWith, number_add, two_def,
    number_div _ (two_ne_zero' K)]

end Handover.Fuzzy
