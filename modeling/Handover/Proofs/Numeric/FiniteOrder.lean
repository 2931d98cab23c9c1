import Handover.Proofs.Numeric.Comparison

/-!
# Order of finite values

Two finite values can be compared, on doubles as in exact arithmetic.  Only what is
infinite or not a number can stay without a place in the order.
-/

namespace Handover

/-- Finite values are in order, one way or the other. -/
class FiniteOrder (α : Type) [Scalar α] : Prop where
  le_total : ∀ x y : α, Scalar.isFinite x = true → Scalar.isFinite y = true → x ≤ y ∨ y ≤ x

/-- Numbers are in order, so finite values are if they are numbers. -/
theorem FiniteOrder.of_lawfulOrder {α : Type} [Scalar α] [LawfulOrder α]
    (number : ∀ x : α, Scalar.isFinite x = true → Scalar.isNaN x = false) : FiniteOrder α where
  le_total x y first second := by
    have first := number x first
    have second := number y second
    by_cases less : y < x
    · exact .inr (LawfulOrder.le_iff.mpr ⟨second, first, LawfulOrder.not_lt_of_lt less⟩)
    · exact .inl (LawfulOrder.le_iff.mpr ⟨first, second, less⟩)

/-- Finite values are numbers. -/
theorem isNaN_of_isFinite {α : Type} [Scalar α] [LawfulOrder α] [FiniteOrder α] {x : α}
    (finite : Scalar.isFinite x = true) : Scalar.isNaN x = false := by
  have le : x ≤ x := (FiniteOrder.le_total x x finite finite).elim id id
  exact (LawfulOrder.le_iff.mp le).1

theorem le_iff_of_isFinite {α : Type} [Scalar α] [LawfulOrder α] [FiniteOrder α] {x y : α}
    (first : Scalar.isFinite x = true) (second : Scalar.isFinite y = true) : x ≤ y ↔ ¬y < x := by
  rw [LawfulOrder.le_iff, and_iff_right (isNaN_of_isFinite first),
    and_iff_right (isNaN_of_isFinite second)]

instance : FiniteOrder Float := by
  refine .of_lawfulOrder fun x finite => ?_
  change x.toModel.unpack.isFinite = true at finite
  change x.toModel.unpack.isNaN = false
  cases unpacked : x.toModel.unpack with
  | notANumber =>
      rw [unpacked] at finite
      cases finite
  | _ => rfl

instance (exponential : Float → Float) : FiniteOrder (Double exponential) where
  le_total := FiniteOrder.le_total (α := Float)

instance {K : Type} [Field K] [LinearOrder K] [IsStrictOrderedRing K] [FloorSemiring K]
    [Exponential K] : FiniteOrder (Extended K) := by
  refine .of_lawfulOrder fun x finite => ?_
  obtain ⟨n, rfl⟩ := (Extended.isFinite_iff x).mp finite
  rfl

end Handover
