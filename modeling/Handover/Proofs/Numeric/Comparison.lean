import Handover.Proofs.Numeric.Double
import Handover.Proofs.Numeric.Extended
import Mathlib.Data.Prod.Lex
import Mathlib.Order.WithBot

/-!
# Comparisons of scalars

Values that are numbers are in a total order, in which distinct values may stand at the
same place, such as the two zeros of doubles.  A value that is not a number has no place
and compares with nothing.  This holds of doubles and of exact arithmetic, and it is all
that the choice of a best score needs.
-/

namespace Handover

open Scalar

/-- Numbers are in order, and nothing else is. -/
class LawfulOrder (α : Type) [Scalar α] : Prop where
  numbers_of_lt : ∀ {x y : α}, x < y → isNaN x = false ∧ isNaN y = false
  not_lt_of_lt : ∀ {x y : α}, x < y → ¬y < x
  lt_or_lt : ∀ {x y z : α}, isNaN y = false → x < z → x < y ∨ y < z
  le_iff : ∀ {x y : α}, x ≤ y ↔ isNaN x = false ∧ isNaN y = false ∧ ¬y < x

namespace LawfulOrder

section Laws

variable {α : Type} [Scalar α] [LawfulOrder α] {x y z : α}

theorem lt_irrefl (x : α) : ¬x < x :=
  fun less => not_lt_of_lt less less

theorem lt_trans (first : x < y) (second : y < z) : x < z :=
  (lt_or_lt (numbers_of_lt second).2 first).resolve_right (not_lt_of_lt second)

theorem lt_of_le_of_lt (first : x ≤ y) (second : y < z) : x < z :=
  (lt_or_lt (le_iff.mp first).1 second).resolve_left (le_iff.mp first).2.2

/-- What is not below a number keeps above whatever that number is above. -/
theorem lt_of_lt_of_not_lt (number : isNaN z = false) (first : x < y) (second : ¬z < y) :
    x < z :=
  (lt_or_lt number first).resolve_right second

end Laws

/-- Values with places in a linear order are in the order of their places. -/
theorem of_place {α L : Type} [Scalar α] [LinearOrder L] (place? : α → Option L)
    (placed : ∀ x, isNaN x = (place? x).isNone)
    (lt : ∀ x y : α, x < y ↔ ∃ a b, place? x = some a ∧ place? y = some b ∧ a < b)
    (le : ∀ x y : α, x ≤ y ↔ ∃ a b, place? x = some a ∧ place? y = some b ∧ a ≤ b) :
    LawfulOrder α where
  numbers_of_lt {x y} less := by
    obtain ⟨a, b, first, second, _⟩ := (lt x y).mp less
    rw [placed, placed, first, second]
    exact ⟨rfl, rfl⟩
  not_lt_of_lt {x y} less more := by
    obtain ⟨a, b, first, second, less⟩ := (lt x y).mp less
    obtain ⟨c, d, third, fourth, more⟩ := (lt y x).mp more
    cases first.symm.trans fourth
    cases second.symm.trans third
    exact less.asymm more
  lt_or_lt {x y z} number less := by
    obtain ⟨a, c, first, third, less⟩ := (lt x z).mp less
    rw [placed, Option.isNone_eq_false_iff, Option.isSome_iff_exists] at number
    obtain ⟨b, second⟩ := number
    rcases lt_or_ge a b with below | above
    · exact .inl ((lt x y).mpr ⟨a, b, first, second, below⟩)
    · exact .inr ((lt y z).mpr ⟨b, c, second, third, above.trans_lt less⟩)
  le_iff {x y} := by
    simp only [placed, Option.isNone_eq_false_iff, Option.isSome_iff_exists, le, lt]
    constructor
    · rintro ⟨a, b, first, second, le⟩
      refine ⟨⟨a, first⟩, ⟨b, second⟩, ?_⟩
      rintro ⟨d, c, fourth, third, less⟩
      cases first.symm.trans third
      cases second.symm.trans fourth
      exact le.not_gt less
    · rintro ⟨⟨a, first⟩, ⟨b, second⟩, notLess⟩
      refine ⟨a, b, first, second, not_lt.mp fun less => ?_⟩
      exact notLess ⟨b, a, second, first, less⟩

end LawfulOrder

/-! ## Doubles -/

namespace Binary64

open Float.Model (UnpackedFloat)

/-- Place of a double: by its sign first, by its size then. -/
def place? : UnpackedFloat → Option (Int ×ₗ Int ×ₗ Int)
  | .notANumber => none
  | .infinity .negative => some (toLex (-2, toLex (0, 0)))
  | .finite .negative mantissa exponent _ => some (toLex (-1, toLex (-exponent, -mantissa)))
  | .zero _ => some (toLex (0, toLex (0, 0)))
  | .finite .positive mantissa exponent _ => some (toLex (1, toLex (exponent, mantissa)))
  | .infinity .positive => some (toLex (2, toLex (0, 0)))

theorem compare_toLex {α β : Type} [LinearOrder α] [LinearOrder β] (a c : α) (b d : β) :
    compare (toLex (a, b)) (toLex (c, d)) = (compare a c).then (compare b d) :=
  congrFun (congrFun Prod.Lex.compare_def _) _

theorem compare_neg (m n : Int) : compare (-m) (-n) = compare n m := by
  rw [← cmp_eq_compare, ← cmp_eq_compare]
  have reverses : StrictAnti (Neg.neg : Int → Int) := fun _ _ => Int.neg_lt_neg
  exact reverses.cmp_map_eq m n

theorem compare_natCast (m n : Nat) : compare (m : Int) n = compare m n := by
  rw [← cmp_eq_compare, ← cmp_eq_compare]
  exact Nat.strictMono_cast.cmp_map_eq m n

/-- Doubles compare as their places do. -/
theorem compare_eq_place (x y : UnpackedFloat) :
    x.compare y = (place? x).bind fun a => (place? y).map fun b => compare a b := by
  cases x with
  | notANumber => rfl
  | infinity sign => cases sign <;> rcases y with (_ | _) | _ | _ | ⟨_ | _, _, _, _⟩ <;> rfl
  | zero => rcases y with (_ | _) | _ | _ | ⟨_ | _, _, _, _⟩ <;> rfl
  | finite sign m e positive =>
      cases y with
      | notANumber => cases sign <;> rfl
      | infinity other => cases sign <;> cases other <;> rfl
      | zero => cases sign <;> rfl
      | finite other n f =>
          -- Under one sign, exponents decide before mantissas.
          cases sign <;> cases other
          case positive.negative => rfl
          case negative.positive => rfl
          case positive.positive =>
            change _ = some (compare (toLex (1, toLex (e, (m : Int)))) (toLex (1, toLex (f, n))))
            rw [compare_toLex, compare_toLex, compare_natCast]
            rfl
          case negative.negative =>
            change _ =
              some (compare (toLex (-1, toLex (-e, -(m : Int)))) (toLex (-1, toLex (-f, -n))))
            rw [compare_toLex, compare_toLex, compare_neg e f, compare_neg m n, compare_natCast,
              (Std.OrientedCmp.eq_swap : compare f e = _),
              (Std.OrientedCmp.eq_swap : compare n m = _), ← Ordering.swap_then]
            rfl

theorem le_iff_compare (x y : Float) :
    x ≤ y ↔ (x.toModel.unpack.compare y.toModel.unpack).any (·.isLE) = true := by
  change decide (_ = true) = true ↔ _
  exact decide_eq_true_iff

theorem lt_iff_compare (x y : Float) :
    x < y ↔ x.toModel.unpack.compare y.toModel.unpack = some .lt := by
  change decide ((_ == _) = true) = true ↔ _
  rw [decide_eq_true_iff, beq_iff_eq]

end Binary64

instance : LawfulOrder Float := by
  refine .of_place (fun x => Binary64.place? x.toModel.unpack) ?_ ?_ ?_
  · intro x
    change x.toModel.unpack.isNaN = _
    rcases x.toModel.unpack with (_ | _) | _ | _ | ⟨_ | _, _, _, _⟩ <;> rfl
  · intro x y
    rw [Binary64.lt_iff_compare, Binary64.compare_eq_place]
    simp only [Option.bind_eq_some_iff, Option.map_eq_some_iff, compare_lt_iff_lt,
      exists_and_left]
  · intro x y
    rw [Binary64.le_iff_compare, Binary64.compare_eq_place]
    simp only [Option.any_eq_true, Option.bind_eq_some_iff, Option.map_eq_some_iff]
    constructor
    · rintro ⟨_, ⟨a, first, b, second, rfl⟩, le⟩
      exact ⟨a, b, first, second, compare_le_iff_le.mp (Ordering.ne_gt_iff_isLE.mpr le)⟩
    · rintro ⟨a, b, first, second, le⟩
      exact ⟨_, ⟨a, first, b, second, rfl⟩, Ordering.ne_gt_iff_isLE.mp (compare_le_iff_le.mpr le)⟩

instance (exponential : Float → Float) : LawfulOrder (Double exponential) where
  numbers_of_lt := LawfulOrder.numbers_of_lt (α := Float)
  not_lt_of_lt := LawfulOrder.not_lt_of_lt (α := Float)
  lt_or_lt := LawfulOrder.lt_or_lt (α := Float)
  le_iff := LawfulOrder.le_iff (α := Float)

/-! ## Exact arithmetic -/

namespace Extended

variable {K : Type}

/-- Place of a value between the infinities. -/
def place? : Extended K → Option (WithBot (WithTop K))
  | number x => some ((x : WithTop K) : WithBot (WithTop K))
  | minusInfinity => some ⊥
  | plusInfinity => some ((⊤ : WithTop K) : WithBot (WithTop K))
  | notNumber => none

end Extended

instance {K : Type} [Field K] [LinearOrder K] [FloorSemiring K] [Exponential K] :
    LawfulOrder (Extended K) := by
  refine .of_place Extended.place? ?_ ?_ ?_
  · rintro (_ | _ | _ | _) <;> rfl
  · have beyond (x : K) : ((x : WithTop K) : WithBot (WithTop K)) < (⊤ : WithTop K) :=
      WithBot.coe_lt_coe.mpr (WithTop.coe_lt_top x)
    rintro (_ | _ | _ | _) (_ | _ | _ | _) <;>
      simp_all [Extended.lt_def, Extended.below, Extended.place?]
  · rintro (_ | _ | _ | _) (_ | _ | _ | _) <;>
      simp [Extended.le_def, Extended.notAbove, Extended.place?]

end Handover
