import Handover.Fuzzy.Footprint
import Handover.Numeric.Binary64

/-!
# Doubles with any exponential

Arithmetic and comparisons of doubles are fixed to the last digit, and the
exponential is not.  Here it is a parameter, of which no more is asked than that
the degrees made from it do not fall where its argument grows, up to the tolerance
of footprints.
-/

namespace Handover

open Scalar Fuzzy

/-- A double.  The exponential belongs to the type. -/
def Double (_exponential : Float → Float) : Type :=
  Float

instance (exponential : Float → Float) : Scalar (Double exponential) :=
  { (inferInstanceAs (Scalar Float) : Scalar (Double exponential)) with exp := exponential }

/-- The degrees that an exponential makes do not fall by more than the tolerance of
footprints when its argument grows. -/
def Steady (exponential : Float → Float) : Prop :=
  ∀ x y : Float, x ≤ y →
    ¬clampUnit (1 * exponential y) + Footprint.tolerance < clampUnit (1 * exponential x)

namespace Fuzzy

variable {exponential : Float → Float}

/-! ## Checks without the exponential -/

theorem Membership.checkBell_double (mean sigma top : Float) :
    Membership.checkBell (α := Double exponential) mean sigma top =
      Membership.checkBell mean sigma top :=
  rfl

theorem Footprint.crosses_double (exponential : Float → Float) (lower upper : Float) :
    (clampUnit (α := Double exponential) upper + tolerance (α := Double exponential) <
        clampUnit (α := Double exponential) lower) =
      (clampUnit upper + tolerance < clampUnit lower) :=
  rfl

end Fuzzy

end Handover
