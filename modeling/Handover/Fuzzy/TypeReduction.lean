import Handover.Fuzzy.TypeOne

/-!
# Type reduction

The centroid of an interval-valued set is an interval: the centroids of all
sets between its bounds.  The Karnik–Mendel procedure finds each end by moving
a switch point.  The left end gives the samples up to the switch point their
upper weight and the others their lower weight, the right end the opposite, and
the switch point follows the weighted mean until that stands still.
-/

namespace Handover.Fuzzy

open Scalar

variable {α : Type} [Scalar α]

/-- Mean of points under weights, unless the weights sum up to nothing. -/
def weightedMean? (xs weights : List α) : Option α :=
  let (weighted, total) := moments (xs.zip weights)
  if epsilon < total then some (weighted / total) else none

/-- Index of the last element that passes a test. -/
def lastIndex? {β : Type} (test : β → Bool) : List β → Option Nat
  | [] => none
  | x :: rest =>
    match lastIndex? test rest with
    | some index => some (index + 1)
    | none => if test x then some 0 else none

/-- Index of the last sample not beyond an estimate. -/
def switchIndex (xs : List α) (estimate : α) : Nat :=
  (lastIndex? (fun x => x ≤ estimate) xs).getD 0

/-- One end of the centroid interval. -/
inductive End where
  | left
  | right
deriving DecidableEq, Repr

/-- Weights with the switch point at an index. -/
def switchedWeights (side : End) (lower upper : List α) (index : Nat) : List α :=
  match side with
  | .left => upper.take (index + 1) ++ lower.drop (index + 1)
  | .right => lower.take (index + 1) ++ upper.drop (index + 1)

/-- Weights half way between the bounds. -/
def middleWeights (lower upper : List α) : List α :=
  List.zipWith (fun low high => (low + high) / two) lower upper

/-- Change of the estimate that counts as standing still. -/
def stillness : α :=
  ofDecimal 1 12

/-- Follows the estimate for a number of rounds. -/
def followEstimate (side : End) (xs lower upper : List α) : Nat → α → Option α
  | 0, estimate => some estimate
  | rounds + 1, estimate =>
    match weightedMean? xs (switchedWeights side lower upper (switchIndex xs estimate)) with
    | none => none
    | some next =>
      if magnitude (next - estimate) ≤ stillness then some next
      else followEstimate side xs lower upper rounds next

/-- Most rounds of the procedure. -/
def roundLimit : Nat :=
  1000

/-- One end of the centroid interval, started from the mean under the middle
weights. -/
def centroidEnd? (side : End) (xs lower upper : List α) : Option α :=
  match weightedMean? xs (middleWeights lower upper) with
  | none => none
  | some start => followEstimate side xs lower upper roundLimit start

/-- Centroid interval of the set with the given bounds over ascending samples,
if the set has an area. -/
def karnikMendel? (xs lower upper : List α) : Option (α × α) :=
  if xs.isEmpty ∨ xs.length ≠ lower.length ∨ xs.length ≠ upper.length then none
  else
    match centroidEnd? .left xs lower upper, centroidEnd? .right xs lower upper with
    | some left, some right => some (lesser left right, greater left right)
    | _, _ => none

end Handover.Fuzzy
