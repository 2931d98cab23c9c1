import Handover.Fuzzy.Domain
import Handover.Fuzzy.Membership

/-!
# Footprints of uncertainty

An interval term has a lower and an upper membership function.  The region
between them is the footprint of uncertainty: every membership function inside
it is a possible meaning of the term.
-/

namespace Handover.Fuzzy

open Scalar

/-- A lower and an upper degree. -/
structure Interval (α : Type) where
  /-- Least degree. -/
  lower : α
  /-- Greatest degree. -/
  upper : α
deriving BEq, Repr

/-- A lower and an upper membership function. -/
structure Footprint (α : Type) where
  /-- Lower bound of the membership. -/
  lower : Membership α
  /-- Upper bound of the membership. -/
  upper : Membership α
deriving BEq, Repr

namespace Footprint

variable {α : Type} [Scalar α]

/-- The footprint of a family of bells whose width is uncertain by `spread`. -/
def ofSpread (shape : α → Membership α) (sigma spread : α) : Footprint α where
  lower := shape (sigma - spread / two)
  upper := shape (sigma + spread / two)

/-- A bell of uncertain width. -/
def gaussian (mean sigma spread height : α) : Footprint α :=
  ofSpread (fun width => .gaussian mean width height) sigma spread

/-- A bell of uncertain width that stays at its height below the mean. -/
def lowShoulder (mean sigma spread height : α) : Footprint α :=
  ofSpread (fun width => .lowShoulder mean width height) sigma spread

/-- A bell of uncertain width that stays at its height above the mean. -/
def highShoulder (mean sigma spread height : α) : Footprint α :=
  ofSpread (fun width => .highShoulder mean width height) sigma spread

/-- The degrees of `x` under both bounds. -/
def degree (footprint : Footprint α) (x : α) : Interval α :=
  ⟨footprint.lower.degree x, footprint.upper.degree x⟩

/-- By how much the bounds may cross before the footprint counts as
inverted. -/
def tolerance : α :=
  ofDecimal 1 9

/-- The bounds are inverted at `x`. -/
def InvertedAt (footprint : Footprint α) (x : α) : Prop :=
  (footprint.degree x).upper + tolerance < (footprint.degree x).lower

instance (footprint : Footprint α) (x : α) : Decidable (footprint.InvertedAt x) :=
  inferInstanceAs (Decidable (_ < _))

/-- Checks both bounds and their order at every sample point. -/
def validate (term : String) (samples : List α) (footprint : Footprint α) :
    Except (FuzzyError α) Unit := do
  footprint.lower.validate term
  footprint.upper.validate term
  match samples.find? fun x => footprint.InvertedAt x with
  | some x => .error (.invertedFootprint term x)
  | none => .ok ()

end Footprint

end Handover.Fuzzy
