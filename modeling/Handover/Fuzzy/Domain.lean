import Handover.Fuzzy.Error

/-!
# Domains

The range of a linguistic variable, sampled at evenly spaced points for the
computation of centroids.
-/

namespace Handover.Fuzzy

open Scalar

/-- Range of a variable and the number of its sample points. -/
structure Domain (α : Type) where
  /-- Lower bound. -/
  min : α
  /-- Upper bound. -/
  max : α
  /-- Number of sample points, both bounds among them. -/
  points : UInt64
deriving BEq, Repr

namespace Domain

variable {α : Type} [Scalar α]

/-- Distance between neighbouring sample points. -/
def step (domain : Domain α) : α :=
  (domain.max - domain.min) / ofNat (Nat.max (domain.points.toNat - 1) 1)

/-- The sample point with a given index; the last one is the upper bound
itself. -/
def sample (domain : Domain α) (index : Nat) : α :=
  if index + 1 = domain.points.toNat then domain.max
  else domain.min + ofNat index * domain.step

/-- The sample points, ascending. -/
def samples (domain : Domain α) : List α :=
  (List.range domain.points.toNat).map domain.sample

/-- A list with an item of this many bytes for each sample point is not too large: it
takes fewer than `2 ^ 63` bytes. -/
def HoldsSamples (domain : Domain α) (bytes : Nat) : Prop :=
  domain.points.toNat * bytes < UInt64.size / 2

instance (domain : Domain α) (bytes : Nat) : Decidable (domain.HoldsSamples bytes) :=
  inferInstanceAs (Decidable (_ < _))

/-- A value moved into the range; what is not a number becomes the lower bound.
Without an order between the bounds there is nothing to move into. -/
def clamp? (domain : Domain α) (x : α) : Option α :=
  if isNaN x then some domain.min
  else if domain.min ≤ domain.max then
    some (if x < domain.min then domain.min else if domain.max < x then domain.max else x)
  else none

/-- Checks the bounds and the number of points. -/
def check (domain : Domain α) : Except DomainFault Unit :=
  if ¬(isFinite domain.min ∧ isFinite domain.max) then .error .infiniteBounds
  else if domain.max ≤ domain.min then .error .emptyRange
  else if domain.points < 2 then .error .tooFewPoints
  else .ok ()

/-- Checks the range of a named variable. -/
def validate (name : String) (domain : Domain α) : Except (FuzzyError α) Unit :=
  match domain.check with
  | .ok () => .ok ()
  | .error fault => .error (.invalidDomain name fault)

end Domain

end Handover.Fuzzy
