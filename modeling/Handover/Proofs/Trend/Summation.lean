import Handover.Trend.Summation
import Handover.Proofs.Numeric.Extended

/-!
# Sums without rounding

In exact arithmetic the order of addition does not show.  The sums that are added from the
left, in lanes or in blocks are all the same sum of numbers.
-/

namespace Handover

open Scalar Extended

variable {K : Type} [Field K] [LinearOrder K] [FloorSemiring K] [Exponential K]

theorem Extended.mulAdd_number (x y z : K) :
    mulAdd (number x) (number y) (number z) = (number (x * y + z) : Extended K) :=
  rfl

/-- Repeated squaring computes the power. -/
theorem powerFrom_number (result base : K) (n : Nat) :
    powerFrom (number result) (number base) n = (number (result * base ^ n) : Extended K) := by
  induction n using Nat.strong_induction_on generalizing result base with
  | _ n ih =>
      have digits : n % 2 + 2 * (n / 2) = n := Nat.mod_add_div n 2
      have next : (if n % 2 = 1 then number result * number base else number result) =
          (number (result * base ^ (n % 2)) : Extended K) := by
        rcases Nat.mod_two_eq_zero_or_one n with even | odd
        · rw [even, if_neg Nat.zero_ne_one, pow_zero, mul_one]
        · rw [odd, if_pos rfl, number_mul, pow_one]
      rw [powerFrom, next]
      by_cases last : n / 2 = 0
      · rw [if_pos last, show n % 2 = n by omega]
      · rw [if_neg last, number_mul, ih (n / 2) (Nat.div_lt_self (by omega) Nat.one_lt_two),
          ← pow_two, ← pow_mul, mul_assoc, ← pow_add, digits]

theorem power_number (base : K) (n : Nat) :
    power (number base) n = (number (base ^ n) : Extended K) := by
  rw [power, one_def, powerFrom_number, one_mul]

namespace Trend

/-- The sum of the products of paired numbers. -/
def inner (xs ys : List K) : K :=
  (List.zipWith (fun x y => x * y) xs ys).sum

omit [LinearOrder K] [FloorSemiring K] [Exponential K] in
@[simp]
theorem inner_nil (ys : List K) : inner [] ys = 0 :=
  rfl

omit [LinearOrder K] [FloorSemiring K] [Exponential K] in
@[simp]
theorem inner_cons (x y : K) (xs ys : List K) :
    inner (x :: xs) (y :: ys) = x * y + inner xs ys :=
  List.sum_cons

omit [Field K] [LinearOrder K] [FloorSemiring K] [Exponential K] in
theorem zipWith_number {operation : Extended K → Extended K → Extended K} {change : K → K → K}
    (exact : ∀ x y, operation (number x) (number y) = number (change x y)) (xs ys : List K) :
    List.zipWith operation (xs.map number) (ys.map number) =
      (List.zipWith change xs ys).map number := by
  rw [List.zipWith_map, List.map_zipWith]
  simp only [exact]

/-! ## From the left -/

theorem foldl_add_number (xs : List K) (start : K) :
    (xs.map number).foldl (fun sum x => sum + x) (number start : Extended K) =
      number (start + xs.sum) := by
  induction xs generalizing start with
  | nil => simp
  | cons x rest ih =>
      rw [List.map_cons, List.foldl_cons, number_add, ih, List.sum_cons, add_assoc]

theorem sumOf_number (xs : List K) : sumOf (xs.map number) = (number xs.sum : Extended K) := by
  rw [sumOf, zero_def, foldl_add_number, zero_add]

theorem dot_number (xs ys : List K) :
    dot (xs.map number) (ys.map number) = (number (inner xs ys) : Extended K) := by
  rw [dot, zipWith_number number_mul, sumOf_number, inner]

/-! ## In lanes -/

omit [LinearOrder K] [FloorSemiring K] [Exponential K] in
theorem sum_zipWith_add {lanes numbers : List K} (enough : lanes.length ≤ numbers.length) :
    (List.zipWith (fun x y => x + y) lanes numbers).sum =
      lanes.sum + (numbers.take lanes.length).sum := by
  induction lanes generalizing numbers with
  | nil => simp
  | cons lane lanes ih =>
      cases numbers with
      | nil => cases enough
      | cons x numbers =>
          rw [List.zipWith_cons_cons, List.sum_cons, List.sum_cons, List.length_cons,
            List.take_succ_cons, List.sum_cons, ih (Nat.le_of_succ_le_succ enough)]
          ring

/-- Rows move numbers into the lanes, and nothing gets lost. -/
theorem addRows_number {lanes : List K} (wide : lanes.length = laneCount) (numbers : List K) :
    ∃ filled others : List K, addRows (lanes.map number) (numbers.map number) =
        (filled.map (number (K := K)), others.map number) ∧
      filled.length = laneCount ∧ filled.sum + others.sum = lanes.sum + numbers.sum := by
  generalize size : numbers.length = count
  induction count using Nat.strong_induction_on generalizing lanes numbers with
  | _ count ih =>
      rw [addRows, List.length_map]
      by_cases full : laneCount ≤ numbers.length
      · have row := sum_zipWith_add (wide.trans_le full)
        have wider : (List.zipWith (fun x y => x + y) lanes numbers).length = laneCount := by
          rw [List.length_zipWith, wide, min_eq_left full]
        have positive : 0 < laneCount := by decide
        obtain ⟨filled, others, added, length, total⟩ := ih _ (by rw [List.length_drop]; omega)
          wider (numbers.drop laneCount) rfl
        rw [if_pos full, zipWith_number number_add, ← List.map_drop]
        refine ⟨filled, others, added, length, ?_⟩
        rw [total, row, wide, add_assoc, List.sum_take_add_sum_drop]
      · rw [if_neg full]
        exact ⟨lanes, numbers, rfl, wide, rfl⟩

theorem laneSum_number (numbers : List K) :
    laneSum (numbers.map number) = (number numbers.sum : Extended K) := by
  obtain ⟨filled, others, added, length, total⟩ :=
    addRows_number (List.length_replicate (n := laneCount) (a := (0 : K))) numbers
  rw [List.map_replicate, ← zero_def] at added
  have halves : (filled.take (laneCount / 2)).length ≤ (filled.drop (laneCount / 2)).length := by
    rw [List.length_take, List.length_drop, length]
    decide
  have folded := sum_zipWith_add halves
  have whole : (filled.drop (laneCount / 2)).take (filled.take (laneCount / 2)).length =
      filled.drop (laneCount / 2) := by
    apply List.take_of_length_le
    rw [List.length_take, List.length_drop, length]
    decide
  rw [whole, List.sum_take_add_sum_drop] at folded
  simp only [laneSum, added, ← List.map_take, ← List.map_drop, zipWith_number number_add,
    ← List.map_append, sumOf_number, List.sum_append, folded, total]
  simp

theorem laneDot_number (xs ys : List K) :
    laneDot (xs.map number) (ys.map number) = (number (inner xs ys) : Extended K) := by
  rw [laneDot, zipWith_number number_mul, laneSum_number, inner]

/-! ## In blocks -/

/-- The products of pairs. -/
def products (pairs : List (K × K)) : List K :=
  pairs.map fun pair => pair.1 * pair.2

theorem foldl_mulAdd_number (pairs : List (K × K)) (start : K) :
    (pairs.map (Prod.map number number)).foldl (fun sum (x, y) => mulAdd x y sum)
        (number start : Extended K) = number (start + (products pairs).sum) := by
  induction pairs generalizing start with
  | nil => simp [products]
  | cons pair rest ih =>
      obtain ⟨x, y⟩ := pair
      simp only [List.map_cons, List.foldl_cons, Prod.map_apply, mulAdd_number, ih, products,
        List.sum_cons]
      rw [← add_assoc, add_comm start]

theorem fusedDot_number (pairs : List (K × K)) :
    fusedDot (pairs.map (Prod.map number number)) =
      (number (products pairs).sum : Extended K) := by
  rw [fusedDot, zero_def, foldl_mulAdd_number, zero_add]

theorem addBlocks_number (sum : K) (pairs : List (K × K)) :
    addBlocks (number sum) (pairs.map (Prod.map number number)) =
      (number (sum + (products pairs).sum) : Extended K) := by
  generalize size : pairs.length = count
  induction count using Nat.strong_induction_on generalizing sum pairs with
  | _ count ih =>
      have positive : 0 < blockSize := by decide
      rw [addBlocks, List.length_map]
      by_cases more : blockSize < pairs.length
      · rw [if_pos more, ← List.map_take, ← List.map_drop, fusedDot_number, number_add,
          ih _ (by rw [List.length_drop]; omega) _ _ rfl, add_assoc, products, products, products,
          List.map_take, List.map_drop, List.sum_take_add_sum_drop]
      · rw [if_neg more, fusedDot_number, number_add]

theorem blockDot_number (xs ys : List K) :
    blockDot (xs.map number) (ys.map number) = (number (inner xs ys) : Extended K) := by
  rw [blockDot, zero_def, List.zip_map, addBlocks_number, zero_add, products, inner,
    List.map_zip_eq_zipWith]
  rfl

end Trend

end Handover
