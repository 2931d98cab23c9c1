import Handover.Trend.Elimination
import Handover.Proofs.Trend.Summation
import Mathlib.Data.List.Perm.Basic

/-!
# Elimination without rounding

A round of elimination exchanges equations and subtracts the pivot equation from the others.
Neither changes the solutions, and what is left has one unknown less.  So a solution that is
found solves all equations, in whatever order they were listed, and nothing else solves them.

It is found unless a pivot is too small.  Equations whose pivots are never too small,
whichever of the largest leading coefficients is chosen, are called stable.
-/

namespace Handover.Trend

open Scalar Extended

/-! ## Exchanges -/

section Exchanges

variable {β γ : Type}

theorem exchangeFirst_map (change : β → γ) (first : β) (rest : List β) (index : Nat) :
    exchangeFirst (change first) (rest.map change) index =
      Prod.map change (List.map change) (exchangeFirst first rest index) := by
  cases index with
  | zero => rfl
  | succ other =>
      rw [exchangeFirst, exchangeFirst, List.getElem?_map]
      cases rest[other]? with
      | none => rfl
      | some found => simp only [Option.map_some, Prod.map_apply, List.map_set]

/-- An exchange keeps all elements. -/
theorem exchangeFirst_perm (first : β) (rest : List β) (index : Nat) :
    ((exchangeFirst first rest index).1 :: (exchangeFirst first rest index).2).Perm
      (first :: rest) := by
  cases index with
  | zero => exact .refl _
  | succ other =>
      have exchanged := rest.getD_set_perm_cons other first
      rw [exchangeFirst]
      cases found : rest[other]? with
      | none => exact .refl _
      | some x =>
          rw [found, Option.getD_some] at exchanged
          exact exchanged

end Exchanges

variable {K : Type} [Field K]

/-! ## Equations -/

namespace Equation

/-- The equation with its numbers among the extended ones. -/
def exact (equation : Equation K) : Equation (Extended K) :=
  ⟨equation.coefficients.map number, number equation.constant⟩

/-- Factor of the first unknown. -/
def first (equation : Equation K) : K :=
  equation.coefficients.headD 0

/-- The equation without its first unknown. -/
def reduce (pivot equation : Equation K) : Equation K :=
  let factor := equation.first / pivot.first
  { coefficients := List.zipWith (fun x p => x - factor * p)
      equation.coefficients.tail pivot.coefficients.tail
    constant := equation.constant - factor * pivot.constant }

/-- The values solve the equation. -/
def Holds (equation : Equation K) (values : List K) : Prop :=
  inner equation.coefficients values = equation.constant

/-- The equation has a coefficient for each of a number of unknowns. -/
def Over (unknowns : Nat) (equation : Equation K) : Prop :=
  equation.coefficients.length = unknowns

variable {pivot equation : Equation K} {unknowns : Nat} {values : List K}

theorem Over.reduce (sized : equation.Over (unknowns + 1)) (pivotOver : pivot.Over (unknowns + 1)) :
    (pivot.reduce equation).Over unknowns := by
  simp only [Over] at sized pivotOver
  simp [Over, Equation.reduce, sized, pivotOver]

theorem inner_zipWith_sub {xs ys : List K} (factor : K) (paired : xs.length = ys.length)
    (values : List K) :
    inner (List.zipWith (fun x y => x - factor * y) xs ys) values =
      inner xs values - factor * inner ys values := by
  induction xs generalizing ys values with
  | nil =>
      rw [List.length_nil, eq_comm, List.length_eq_zero_iff] at paired
      subst paired
      simp
  | cons x xs ih =>
      cases ys with
      | nil => cases paired
      | cons y ys =>
          cases values with
          | nil => simp [inner]
          | cons v values =>
              rw [List.zipWith_cons_cons, inner_cons, inner_cons, inner_cons,
                ih (Nat.succ.inj paired)]
              ring

theorem Over.exists_cons (sized : equation.Over (unknowns + 1)) :
    ∃ others, equation.coefficients = equation.first :: others := by
  obtain ⟨coefficients, constant⟩ := equation
  obtain ⟨first, others, rfl⟩ := List.exists_cons_of_length_eq_add_one sized
  exact ⟨others, rfl⟩

/-- Where the pivot equation holds, an equation holds exactly if it does without its first
unknown. -/
theorem holds_reduce_iff (sized : equation.Over (unknowns + 1))
    (pivotOver : pivot.Over (unknowns + 1)) (nonzero : pivot.first ≠ 0) {value : K}
    (holds : pivot.Holds (value :: values)) :
    (pivot.reduce equation).Holds values ↔ equation.Holds (value :: values) := by
  obtain ⟨xs, coefficients⟩ := sized.exists_cons
  obtain ⟨ys, pivotCoefficients⟩ := pivotOver.exists_cons
  have paired : xs.length = ys.length := by
    rw [Over, coefficients] at sized
    rw [Over, pivotCoefficients] at pivotOver
    exact Nat.succ.inj (sized.trans pivotOver.symm)
  rw [Holds, pivotCoefficients, inner_cons] at holds
  rw [Holds, Holds, Equation.reduce, coefficients, pivotCoefficients, inner_cons, ← holds]
  simp only [List.tail_cons, inner_zipWith_sub _ paired]
  have cancels : equation.first / pivot.first * pivot.first = equation.first :=
    div_mul_cancel₀ _ nonzero
  constructor
  · intro reduced
    linear_combination reduced - value * cancels
  · intro whole
    linear_combination whole + value * cancels

variable [LinearOrder K] [FloorSemiring K] [Exponential K]

theorem lead_exact (equation : Equation K) : equation.exact.lead = number equation.first := by
  obtain ⟨_ | ⟨x, others⟩, constant⟩ := equation <;> rfl

theorem eliminate_exact (pivot equation : Equation K) (nonzero : pivot.first ≠ 0) :
    pivot.exact.eliminate equation.exact = (pivot.reduce equation).exact := by
  have factor : equation.exact.lead / pivot.exact.lead =
      number (equation.first / pivot.first) := by
    rw [lead_exact, lead_exact, number_div _ nonzero]
  rw [eliminate, factor, others, others]
  simp only [exact, reduce, ← List.map_tail]
  rw [zipWith_number fun x y => by rw [number_mul, number_sub]]
  simp only [number_mul, number_sub]

/-- There is one value of the first unknown under which the pivot equation holds. -/
theorem exists_resolve (sized : pivot.Over (unknowns + 1)) (nonzero : pivot.first ≠ 0)
    (values : List K) :
    ∃ value, pivot.exact.resolve (values.map number) = number value ∧
      ∀ other, pivot.Holds (other :: values) ↔ other = value := by
  obtain ⟨others, coefficients⟩ := sized.exists_cons
  refine ⟨(pivot.constant - inner others values) / pivot.first, ?_, fun other => ?_⟩
  · rw [resolve, lead_exact, Equation.others, exact, coefficients, List.map_cons, List.tail_cons,
      dot_number, number_sub, number_div _ nonzero]
  · rw [Holds, coefficients, inner_cons, eq_div_iff nonzero, eq_sub_iff_add_eq, mul_comm]

end Equation

/-! ## Pivots -/

section Pivots

variable [LinearOrder K] [IsStrictOrderedRing K] [FloorSemiring K] [Exponential K]

theorem magnitudeLE_number (x y : K) :
    MagnitudeLE (number x : Extended K) (number y) ↔ |x| ≤ |y| := by
  simp [MagnitudeLE, isNaN_def, magnitude_number]

/-- The scan ends with the value that it holds or with a later one, which is as large as any. -/
theorem largestFrom_number (index best : Nat) (value : K) (rest : List K) :
    (largestFrom index best (number value) (rest.map number) : Nat) = best ∧
        (∀ x ∈ rest, |x| ≤ |value|) ∨
      ∃ place, ∃ bound : place < rest.length,
        largestFrom index best (number value : Extended K) (rest.map number) = index + place ∧
          |value| ≤ |rest[place]| ∧ ∀ x ∈ rest, |x| ≤ |rest[place]| := by
  induction rest generalizing index best value with
  | nil => exact .inl ⟨rfl, nofun⟩
  | cons x rest ih =>
      rw [List.map_cons, largestFrom]
      simp only [magnitudeLE_number, List.forall_mem_cons]
      by_cases le : |value| ≤ |x|
      · rw [if_pos le]
        rcases ih (index + 1) index x with ⟨same, most⟩ | ⟨place, bound, found, above, most⟩
        · exact .inr ⟨0, Nat.succ_pos _, same, le, le_rfl, most⟩
        · refine .inr ⟨place + 1, Nat.succ_lt_succ bound, ?_, le.trans above, above, most⟩
          rw [found]
          omega
      · rw [if_neg le]
        have less := (not_le.mp le).le
        rcases ih (index + 1) best value with ⟨same, most⟩ | ⟨place, bound, found, above, most⟩
        · exact .inl ⟨same, less, most⟩
        · refine .inr ⟨place + 1, Nat.succ_lt_succ bound, ?_, above, less.trans above, most⟩
          rw [found]
          omega

/-- One of the equations with the largest leading coefficient is exchanged with the first. -/
theorem exists_pivot (equation : Equation K) (rest : List (Equation K)) :
    ∃ pivot others,
      exchangeFirst equation.exact (rest.map Equation.exact)
          (largestIndex ((equation.exact :: rest.map Equation.exact).map Equation.lead)) =
        (pivot.exact, others.map Equation.exact) ∧
      (pivot :: others).Perm (equation :: rest) ∧
      ∀ row ∈ equation :: rest, |row.first| ≤ |pivot.first| := by
  have leads : (equation.exact :: rest.map Equation.exact).map Equation.lead =
      number equation.first :: (rest.map Equation.first).map number := by
    rw [List.map_cons, List.map_map, List.map_map, Equation.lead_exact]
    exact congrArg (_ :: ·) (List.map_congr_left fun row _ => Equation.lead_exact row)
  have largest : ∃ index, largestIndex (number equation.first ::
        (rest.map Equation.first).map number : List (Extended K)) = index ∧
      ∀ row ∈ equation :: rest, |row.first| ≤ |(exchangeFirst equation rest index).1.first| := by
    rw [largestIndex]
    rcases largestFrom_number 1 0 equation.first (rest.map Equation.first) with
      ⟨same, most⟩ | ⟨place, bound, found, above, most⟩
    · exact ⟨0, same, List.forall_mem_cons.mpr
        ⟨le_rfl, fun row member => most _ (List.mem_map_of_mem member)⟩⟩
    · rw [List.length_map] at bound
      simp only [List.getElem_map] at above most
      refine ⟨place + 1, found.trans (Nat.add_comm 1 place), ?_⟩
      simp only [exchangeFirst, List.getElem?_eq_getElem bound]
      exact List.forall_mem_cons.mpr
        ⟨above, fun row member => most _ (List.mem_map_of_mem member)⟩
  obtain ⟨index, chosen, largest⟩ := largest
  refine ⟨(exchangeFirst equation rest index).1, (exchangeFirst equation rest index).2, ?_,
    exchangeFirst_perm equation rest index, largest⟩
  rw [leads, chosen, exchangeFirst_map]
  rfl

omit [IsStrictOrderedRing K] in
theorem leastPivot_def : (leastPivot : Extended K) = number (1 / 10 ^ 12) := by
  rw [leastPivot, ofDecimal_def, Int.cast_one]

omit [FloorSemiring K] [Exponential K] in
theorem ne_zero_of_not_small {x : K} (enough : ¬|x| < 1 / 10 ^ 12) : x ≠ 0 := by
  rintro rfl
  rw [abs_zero] at enough
  exact enough (by positivity)

/-- A round of elimination. -/
theorem solve?_succ (unknowns : Nat) {rows : List (Equation K)} (nonempty : rows ≠ []) :
    ∃ pivot others, (pivot :: others).Perm rows ∧ (∀ row ∈ rows, |row.first| ≤ |pivot.first|) ∧
      solve? (unknowns + 1) (rows.map Equation.exact) =
        if |pivot.first| < 1 / 10 ^ 12 then none
        else (solve? unknowns ((others.map pivot.reduce).map Equation.exact)).map
          fun solution => pivot.exact.resolve solution :: solution := by
  obtain ⟨equation, rest, rfl⟩ := List.exists_cons_of_ne_nil nonempty
  obtain ⟨pivot, others, exchanged, listed, largest⟩ := exists_pivot equation rest
  refine ⟨pivot, others, listed, largest, ?_⟩
  have compare : magnitude pivot.exact.lead < leastPivot ↔ |pivot.first| < 1 / 10 ^ 12 := by
    rw [Equation.lead_exact, magnitude_number, leastPivot_def, number_lt]
  rw [List.map_cons, solve?, exchanged]
  dsimp only
  by_cases small : |pivot.first| < 1 / 10 ^ 12
  · rw [if_pos (compare.mpr small), if_pos small]
  · have nonzero : pivot.first ≠ 0 := ne_zero_of_not_small small
    have reduced : (others.map Equation.exact).map pivot.exact.eliminate =
        (others.map pivot.reduce).map Equation.exact := by
      rw [List.map_map, List.map_map]
      exact List.map_congr_left fun row _ => Equation.eliminate_exact pivot row nonzero
    rw [if_neg (compare.not.mpr small), if_neg small, reduced]
    cases solve? unknowns ((others.map pivot.reduce).map Equation.exact) <;> rfl

end Pivots

/-! ## Solutions -/

section Solutions

variable [LinearOrder K] [IsStrictOrderedRing K] [FloorSemiring K] [Exponential K]
  {unknowns : Nat} {rows : List (Equation K)}

omit [LinearOrder K] [IsStrictOrderedRing K] [FloorSemiring K] [Exponential K] in
/-- A round keeps the solutions: they solve the pivot equation, and their other values solve the
reduced equations. -/
theorem holds_round_iff {pivot : Equation K} {others : List (Equation K)}
    (listed : (pivot :: others).Perm rows) (sized : ∀ row ∈ rows, row.Over (unknowns + 1))
    (nonzero : pivot.first ≠ 0) (value : K) (values : List K) :
    (∀ row ∈ rows, row.Holds (value :: values)) ↔
      pivot.Holds (value :: values) ∧ ∀ row ∈ others.map pivot.reduce, row.Holds values := by
  have overEach (row : Equation K) (member : row ∈ pivot :: others) : row.Over (unknowns + 1) :=
    sized row (listed.mem_iff.mp member)
  have pivotOver := overEach pivot List.mem_cons_self
  calc (∀ row ∈ rows, row.Holds (value :: values))
      ↔ ∀ row ∈ pivot :: others, row.Holds (value :: values) :=
        forall_congr' fun row => imp_congr_left listed.mem_iff.symm
    _ ↔ pivot.Holds (value :: values) ∧ ∀ row ∈ others, row.Holds (value :: values) :=
        List.forall_mem_cons
    _ ↔ pivot.Holds (value :: values) ∧ ∀ row ∈ others.map pivot.reduce, row.Holds values := by
        apply and_congr_right
        intro holds
        rw [List.forall_mem_map]
        exact forall₂_congr fun row member => (Equation.holds_reduce_iff
          (overEach row (List.mem_cons_of_mem _ member)) pivotOver nonzero holds).symm

/-- A solution that is found is the only one. -/
theorem solve?_iff (square : rows.length = unknowns) (sized : ∀ row ∈ rows, row.Over unknowns)
    {solution : List (Extended K)}
    (solved : solve? unknowns (rows.map Equation.exact) = some solution) :
    ∃ values : List K, solution = values.map number ∧ values.length = unknowns ∧
      ∀ others : List K, others.length = unknowns →
        ((∀ row ∈ rows, row.Holds others) ↔ others = values) := by
  induction unknowns generalizing rows solution with
  | zero =>
      cases solved
      rw [List.length_eq_zero_iff.mp square]
      exact ⟨[], rfl, rfl, fun others none => iff_of_true nofun (List.length_eq_zero_iff.mp none)⟩
  | succ unknowns ih =>
      have nonempty : rows ≠ [] := List.ne_nil_of_length_eq_add_one square
      obtain ⟨pivot, others, listed, _, round⟩ := solve?_succ unknowns nonempty
      rw [round] at solved
      split_ifs at solved with small
      obtain ⟨found, solvedRest, rfl⟩ := Option.map_eq_some_iff.mp solved
      have nonzero : pivot.first ≠ 0 := ne_zero_of_not_small small
      have pivotOver : pivot.Over (unknowns + 1) :=
        sized pivot (listed.mem_iff.mp List.mem_cons_self)
      have fewer : (others.map pivot.reduce).length = unknowns := by
        rw [List.length_map]
        exact Nat.succ.inj (listed.length_eq.trans square)
      have reducedOver : ∀ row ∈ others.map pivot.reduce, row.Over unknowns :=
        List.forall_mem_map.mpr fun row member =>
          (sized row (listed.mem_iff.mp (List.mem_cons_of_mem _ member))).reduce pivotOver
      obtain ⟨values, rfl, length, only⟩ := ih fewer reducedOver solvedRest
      obtain ⟨value, resolved, pivotHolds⟩ := Equation.exists_resolve pivotOver nonzero values
      refine ⟨value :: values, by rw [resolved, List.map_cons], by rw [List.length_cons, length],
        fun candidate enough => ?_⟩
      obtain ⟨first, rest, rfl⟩ := List.exists_cons_of_length_eq_add_one enough
      calc (∀ row ∈ rows, row.Holds (first :: rest))
          ↔ pivot.Holds (first :: rest) ∧ ∀ row ∈ others.map pivot.reduce, row.Holds rest :=
            holds_round_iff listed sized nonzero first rest
        _ ↔ pivot.Holds (first :: rest) ∧ rest = values :=
            and_congr_right_iff.mpr fun _ => only rest (Nat.succ.inj enough)
        _ ↔ first = value ∧ rest = values :=
            and_congr_left fun same => by rw [same, pivotHolds]
        _ ↔ first :: rest = value :: values := List.cons_eq_cons.symm

/-- A solution that is found solves all equations. -/
theorem solve?_sound (square : rows.length = unknowns) (sized : ∀ row ∈ rows, row.Over unknowns)
    {solution : List (Extended K)}
    (solved : solve? unknowns (rows.map Equation.exact) = some solution) :
    ∃ values : List K, solution = values.map number ∧ values.length = unknowns ∧
      ∀ row ∈ rows, row.Holds values := by
  obtain ⟨values, same, length, only⟩ := solve?_iff square sized solved
  exact ⟨values, same, length, (only values length).mpr rfl⟩

/-- Whichever of the largest leading coefficients is chosen, no pivot is too small. -/
def Stable : Nat → List (Equation K) → Prop
  | 0, _ => True
  | unknowns + 1, rows => ∀ pivot others, (pivot :: others).Perm rows →
      (∀ row ∈ rows, |row.first| ≤ |pivot.first|) →
        1 / 10 ^ 12 ≤ |pivot.first| ∧ Stable unknowns (others.map pivot.reduce)

/-- Stable equations have a solution that is found. -/
theorem Stable.exists_solution (stable : Stable unknowns rows) (square : rows.length = unknowns) :
    ∃ solution, solve? unknowns (rows.map Equation.exact) = some solution := by
  induction unknowns generalizing rows with
  | zero => exact ⟨[], by rw [solve?]⟩
  | succ unknowns ih =>
      have nonempty : rows ≠ [] := List.ne_nil_of_length_eq_add_one square
      obtain ⟨pivot, others, listed, largest, round⟩ := solve?_succ unknowns nonempty
      obtain ⟨enough, reduced⟩ := stable pivot others listed largest
      obtain ⟨solution, solved⟩ := ih reduced
        (by rw [List.length_map]; exact Nat.succ.inj (listed.length_eq.trans square))
      exact ⟨_, by rw [round, if_neg enough.not_gt, solved, Option.map_some]⟩

omit [IsStrictOrderedRing K] [FloorSemiring K] [Exponential K] in
theorem Stable.of_perm {others : List (Equation K)} (stable : Stable unknowns rows)
    (listed : rows.Perm others) : Stable unknowns others := by
  cases unknowns with
  | zero => exact True.intro
  | succ unknowns =>
      intro pivot rest found largest
      exact stable pivot rest (found.trans listed.symm) fun row member =>
        largest row (listed.mem_iff.mp member)

omit [IsStrictOrderedRing K] [FloorSemiring K] [Exponential K] in
theorem stable_one {row : Equation K} (enough : 1 / 10 ^ 12 ≤ |row.first|) :
    Stable 1 [row] := by
  intro pivot others listed _
  obtain ⟨rfl, _⟩ := List.cons_eq_cons.mp (List.perm_singleton.mp listed)
  exact ⟨enough, True.intro⟩

omit [IsStrictOrderedRing K] [FloorSemiring K] [Exponential K] in
/-- Of two equations, either one may be the pivot equation if its leading coefficient is not
the smaller one. -/
theorem stable_two {row other : Equation K}
    (first : |other.first| ≤ |row.first| →
      1 / 10 ^ 12 ≤ |row.first| ∧ 1 / 10 ^ 12 ≤ |(row.reduce other).first|)
    (second : |row.first| ≤ |other.first| →
      1 / 10 ^ 12 ≤ |other.first| ∧ 1 / 10 ^ 12 ≤ |(other.reduce row).first|) :
    Stable 2 [row, other] := by
  intro pivot others listed largest
  simp only [List.forall_mem_cons] at largest
  rcases List.mem_pair.mp (listed.mem_iff.mp List.mem_cons_self) with rfl | rfl
  · have rest := List.perm_singleton.mp (listed.cons_inv)
    rw [rest]
    exact (first largest.2.1).imp_right stable_one
  · have rest := List.perm_singleton.mp ((listed.trans (.swap _ _ _)).cons_inv)
    rw [rest]
    exact (second largest.1).imp_right stable_one

omit [IsStrictOrderedRing K] [FloorSemiring K] [Exponential K] in
/-- If the last of three equations has the largest leading coefficient, it is the pivot
equation. -/
theorem stable_three {row other last : Equation K} (less : |row.first| < |last.first|)
    (lesser : |other.first| < |last.first|) (enough : 1 / 10 ^ 12 ≤ |last.first|)
    (stable : Stable 2 [last.reduce row, last.reduce other]) :
    Stable 3 [row, other, last] := by
  intro pivot others listed largest
  simp only [List.forall_mem_cons] at largest
  have member := listed.mem_iff.mp List.mem_cons_self
  rw [List.mem_cons, List.mem_pair] at member
  rcases member with rfl | rfl | rfl
  · exact absurd less largest.2.2.1.not_gt
  · exact absurd lesser largest.2.2.1.not_gt
  · have rest : others.Perm [row, other] :=
      (listed.trans (List.perm_append_singleton pivot [row, other])).cons_inv
    exact ⟨enough, stable.of_perm (rest.symm.map _)⟩

end Solutions

end Handover.Trend
