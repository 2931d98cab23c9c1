import Handover.Fuzzy.TypeReduction

/-!
# Interval type-2 systems

Inference with footprints of uncertainty.  Both bounds are inferred like a
type-1 system; type reduction turns the two joined outputs into an interval of
centroids, and the answer is its midpoint.
-/

namespace Handover.Fuzzy

open Scalar

/-- Description of an interval type-2 system. -/
abbrev TypeTwoDefinition (α : Type) :=
  Definition α (Footprint α)

/-- An interval type-2 system. -/
abbrev TypeTwoSystem (α : Type) :=
  System α (Footprint α)

/-- Lower and upper activation of every output term. -/
structure IntervalActivation (α : Type) where
  /-- Activations under the lower memberships. -/
  lower : List α
  /-- Activations under the upper memberships. -/
  upper : List α
deriving BEq, Repr

namespace TypeTwo

variable {α : Type} [Scalar α]

/-- Activation interval of every output term. -/
def activate (system : TypeTwoSystem α) (fuzzified : List (List (Interval α))) :
    IntervalActivation α where
  lower := activations system.output.terms.length system.indexed
    (fuzzified.map fun degrees => degrees.map Interval.lower)
  upper := activations system.output.terms.length system.indexed
    (fuzzified.map fun degrees => degrees.map Interval.upper)

/-- Joined height of clipped terms at `x` under one bound; a term without an
activation counts as inactive. -/
def joinedBound (bound : Footprint α → Membership α) (x : α) :
    List (Term (Footprint α)) → List α → α → α
  | [], _, top => top
  | term :: terms, activation, top =>
    let clipped := lesser (activation.headD 0) ((bound term.membership).degree x)
    joinedBound bound x terms activation.tail (greater top clipped)

/-- Joined lower and upper height at `x`; the upper one is at least the
lower. -/
def joined (system : TypeTwoSystem α) (activation : IntervalActivation α) (x : α) :
    Interval α :=
  let low := joinedBound Footprint.lower x system.output.terms activation.lower 0
  let high := joinedBound Footprint.upper x system.output.terms activation.upper 0
  ⟨low, greater high low⟩

/-- Interval of the centroids of the joined output. -/
def reduceType (system : TypeTwoSystem α) (activation : IntervalActivation α) :
    Except (FuzzyError α) (α × α) :=
  let xs := system.output.domain.samples
  let heights := xs.map (joined system activation)
  match karnikMendel? xs (heights.map Interval.lower) (heights.map Interval.upper) with
  | some ends => .ok ends
  | none => .error (.emptyOutput system.output.name)

/-- Midpoint of the interval of centroids. -/
def defuzzify (system : TypeTwoSystem α) (activation : IntervalActivation α) :
    Except (FuzzyError α) α := do
  let (left, right) ← reduceType system activation
  .ok ((left + right) / two)

/-- The answer of the system to one crisp value per input. -/
def evaluate (system : TypeTwoSystem α) (crisp : List α) : Except (FuzzyError α) α := do
  let fuzzified ← system.fuzzify crisp
  defuzzify system (activate system fuzzified)

/-- Bytes of a sample point, and of each of its heights. -/
def pointSize : Nat :=
  8

/-- Midpoint of the interval of centroids, unless the output has too many sample points to
hold them. -/
def defuzzify? (system : TypeTwoSystem α) (activation : IntervalActivation α) :
    Option (Except (FuzzyError α) α) :=
  if system.output.domain.HoldsSamples pointSize then some (defuzzify system activation)
  else none

/-- The answer of the system, unless its output has too many sample points. -/
def evaluate? (system : TypeTwoSystem α) (crisp : List α) : Option (Except (FuzzyError α) α) :=
  system.answer? crisp fun fuzzified => defuzzify? system (activate system fuzzified)

end TypeTwo

end Handover.Fuzzy
