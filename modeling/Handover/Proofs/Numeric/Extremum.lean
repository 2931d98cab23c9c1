import Handover.Proofs.Choice
import Handover.Proofs.Numeric.FiniteOrder
import Mathlib.Order.Bounds.Basic

/-!
# Least and greatest values

`lesser` and `greater` pass over what is not a number, and of two values at the same
place they keep the later one.  So the end of a chain of selections may depend on the
order of the values.  If the values are numbers of which any two can be told apart, then
it does not: the chain ends with the least or the greatest one, in whatever order and
however often they come.
-/

namespace Handover

open Scalar

/-- Zero is below one. -/
class UnitOrder (α : Type) [Scalar α] : Prop extends LawfulOrder α where
  zero_lt_one : (0 : α) < 1

instance : UnitOrder Float where
  zero_lt_one := by decide +kernel

instance (exponential : Float → Float) : UnitOrder (Double exponential) where
  zero_lt_one := UnitOrder.zero_lt_one (α := Float)

instance {K : Type} [Field K] [LinearOrder K] [IsStrictOrderedRing K] [FloorSemiring K]
    [Exponential K] : UnitOrder (Extended K) where
  zero_lt_one := (Extended.number_lt 0 1).mpr zero_lt_one

/-! ## The two selections -/

variable {α : Type} [Scalar α]

/-- All values are numbers, and any two of them can be told apart. -/
def Comparable (values : List α) : Prop :=
  ∀ x ∈ values, isNaN x = false ∧ ∀ y ∈ values, x < y ∨ x = y ∨ y < x

instance [DecidableEq α] (values : List α) : Decidable (Comparable values) :=
  inferInstanceAs (Decidable (∀ x ∈ values, _ ∧ ∀ y ∈ values, _))

section Order

variable [LawfulOrder α] {values : List α}

theorem LawfulOrder.le_self {x : α} (number : isNaN x = false) : x ≤ x :=
  LawfulOrder.le_iff.mpr ⟨number, number, LawfulOrder.lt_irrefl x⟩

theorem LawfulOrder.le_trans {x y z : α} (first : x ≤ y) (second : y ≤ z) : x ≤ z := by
  refine LawfulOrder.le_iff.mpr
    ⟨(LawfulOrder.le_iff.mp first).1, (LawfulOrder.le_iff.mp second).2.1, fun less => ?_⟩
  exact (LawfulOrder.le_iff.mp first).2.2 (LawfulOrder.lt_of_le_of_lt second less)

theorem LawfulOrder.le_of_lt {x y : α} (less : x < y) : x ≤ y := by
  obtain ⟨first, second⟩ := LawfulOrder.numbers_of_lt less
  exact LawfulOrder.le_iff.mpr ⟨first, second, LawfulOrder.not_lt_of_lt less⟩

/-- What is moved into the unit interval lies there, if it is a number at all. -/
theorem clampUnit_between {α : Type} [Scalar α] [UnitOrder α] {x : α}
    (number : isNaN (clampUnit x) = false) : 0 ≤ clampUnit x ∧ clampUnit x ≤ 1 := by
  have less : (0 : α) < 1 := UnitOrder.zero_lt_one
  obtain ⟨zero, one⟩ := LawfulOrder.numbers_of_lt less
  unfold clampUnit at number ⊢
  split_ifs at number ⊢ with low high
  · exact ⟨LawfulOrder.le_self zero, LawfulOrder.le_of_lt less⟩
  · exact ⟨LawfulOrder.le_of_lt less, LawfulOrder.le_self one⟩
  · exact ⟨LawfulOrder.le_iff.mpr ⟨zero, number, low⟩, LawfulOrder.le_iff.mpr ⟨number, one, high⟩⟩

namespace Comparable

variable (comparable : Comparable values)

include comparable

theorem le_refl {x : α} (known : x ∈ values) : x ≤ x :=
  LawfulOrder.le_self (comparable x known).1

theorem le_antisymm {x y : α} (first : x ∈ values) (second : y ∈ values) (le : x ≤ y)
    (ge : y ≤ x) : x = y := by
  rcases (comparable x first).2 y second with less | equal | less
  · exact absurd less (LawfulOrder.le_iff.mp ge).2.2
  · exact equal
  · exact absurd less (LawfulOrder.le_iff.mp le).2.2

theorem selects_lesser : Selects values (· ≤ ·) lesser where
  refl _ known := comparable.le_refl known
  trans := LawfulOrder.le_trans
  antisymm _ first _ second := comparable.le_antisymm first second
  either x first y second := by
    unfold lesser
    split
    · next less => exact .inl ⟨rfl, LawfulOrder.le_of_lt less⟩
    · next notLess =>
      rw [(comparable y second).1]
      exact .inr ⟨rfl, LawfulOrder.le_iff.mpr
        ⟨(comparable y second).1, (comparable x first).1, notLess⟩⟩

theorem selects_greater : Selects values (fun x y => y ≤ x) greater where
  refl _ known := comparable.le_refl known
  trans first second := LawfulOrder.le_trans second first
  antisymm _ first _ second le ge := comparable.le_antisymm first second ge le
  either x first y second := by
    unfold greater
    split
    · next less => exact .inl ⟨rfl, LawfulOrder.le_of_lt less⟩
    · next notLess =>
      rw [(comparable y second).1]
      exact .inr ⟨rfl, LawfulOrder.le_iff.mpr
        ⟨(comparable x first).1, (comparable y second).1, notLess⟩⟩

end Comparable

end Order

end Handover
