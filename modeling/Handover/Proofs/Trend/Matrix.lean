import Handover.Proofs.Trend.Elimination
import Mathlib.LinearAlgebra.Matrix.ToLinearEquiv

/-!
# Elimination on matrices

Elimination finds the solution of a system of equations only if there is no other one.  So it
fails on every singular matrix, and what it finds is the solution.
-/

namespace Handover.Trend

open Extended

variable {K : Type} [Field K] {m : Nat}

/-- The equations of a square matrix and a right-hand side. -/
def equations (a : Matrix (Fin m) (Fin m) K) (b : Fin m → K) : List (Equation K) :=
  List.ofFn fun row => ⟨List.ofFn (a row), b row⟩

theorem inner_ofFn (x y : Fin m → K) : inner (List.ofFn x) (List.ofFn y) = x ⬝ᵥ y := by
  induction m with
  | zero => rfl
  | succ m ih =>
      rw [List.ofFn_succ, List.ofFn_succ, inner_cons, ih, dotProduct, dotProduct,
        Fin.sum_univ_succ]

/-- The equations hold for the solutions of the matrix. -/
theorem holds_equations_iff {a : Matrix (Fin m) (Fin m) K} {b c : Fin m → K} :
    (∀ row ∈ equations a b, row.Holds (List.ofFn c)) ↔ a.mulVec c = b := by
  rw [equations, List.forall_mem_ofFn_iff, funext_iff]
  apply forall_congr'
  intro row
  rw [Equation.Holds, inner_ofFn]
  rfl

omit [Field K] in
theorem length_equations (a : Matrix (Fin m) (Fin m) K) (b : Fin m → K) :
    (equations a b).length = m :=
  List.length_ofFn

omit [Field K] in
theorem over_equations (a : Matrix (Fin m) (Fin m) K) (b : Fin m → K) :
    ∀ row ∈ equations a b, row.Over m := by
  rw [equations, List.forall_mem_ofFn_iff]
  intro row
  exact List.length_ofFn

variable [LinearOrder K] [IsStrictOrderedRing K] [FloorSemiring K] [Exponential K]

/-- What elimination finds is the one solution, and it finds nothing on a singular matrix. -/
theorem elimination_finds_only_solution (m : Nat) (a : Matrix (Fin m) (Fin m) K) (b : Fin m → K) :
    (∀ solution, solve? m ((equations a b).map Equation.exact) = some solution →
      ∃ c : Fin m → K, solution = (List.ofFn c).map number ∧ a.mulVec c = b ∧
        ∀ other, a.mulVec other = b → other = c) ∧
    (a.det = 0 → solve? m ((equations a b).map Equation.exact) = none) := by
  have found (solution) (solved : solve? m ((equations a b).map Equation.exact) = some solution) :
      ∃ c : Fin m → K, solution = (List.ofFn c).map number ∧
        ∀ other, a.mulVec other = b ↔ other = c := by
    obtain ⟨values, rfl, length, only⟩ :=
      solve?_iff (length_equations a b) (over_equations a b) solved
    obtain ⟨c, rfl⟩ : ∃ c : Fin m → K, values = List.ofFn c := by
      subst length
      exact ⟨values.get, (List.ofFn_get values).symm⟩
    refine ⟨c, rfl, fun other => ?_⟩
    rw [← holds_equations_iff, only _ List.length_ofFn, List.ofFn_inj]
  constructor
  · intro solution solved
    obtain ⟨c, rfl, only⟩ := found solution solved
    exact ⟨c, rfl, (only c).mpr rfl, fun other => (only other).mp⟩
  · intro singular
    obtain ⟨v, nonzero, null⟩ := Matrix.exists_mulVec_eq_zero_iff.mpr singular
    apply Option.eq_none_iff_forall_ne_some.mpr
    intro solution solved
    obtain ⟨c, _, only⟩ := found solution solved
    -- A vector that the matrix sends to zero leads to a second solution.
    have second : a.mulVec (c + v) = b := by
      rw [Matrix.mulVec_add, null, add_zero]
      exact (only c).mpr rfl
    exact nonzero (left_eq_add.mp ((only _).mp second).symm)

theorem elimination_finds_only_solution_exchanged :
    let crossed : Matrix (Fin 2) (Fin 2) ℚ := !![0, 2; 3, 1]
    let flat : Matrix (Fin 2) (Fin 2) ℚ := !![1, 2; 2, 4]
    solve? 2 ((equations crossed ![4, 5]).map Equation.exact) = some ([1, 2].map number) ∧
      crossed.mulVec ![1, 2] = ![4, 5] ∧
      (∀ other, crossed.mulVec other = ![4, 5] → other = ![1, 2]) ∧
      flat.det = 0 ∧ solve? 2 ((equations flat ![4, 5]).map Equation.exact) = none := by
  intro crossed flat
  have solved : solve? 2 ((equations crossed ![4, 5]).map Equation.exact) =
      some ([1, 2].map number) := by
    decide +kernel
  have singular : flat.det = 0 := by decide +kernel
  obtain ⟨c, same, solves, only⟩ :=
    (elimination_finds_only_solution 2 crossed ![4, 5]).1 _ solved
  have listed : List.ofFn ![1, 2] = List.ofFn c :=
    List.map_injective_iff.mpr (fun _ _ => number.inj) same
  obtain rfl := List.ofFn_injective listed
  exact ⟨solved, solves, only, singular,
    (elimination_finds_only_solution 2 flat ![4, 5]).2 singular⟩

end Handover.Trend
