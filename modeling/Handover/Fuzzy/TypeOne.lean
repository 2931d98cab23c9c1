import Handover.Fuzzy.System

/-!
# Type-1 systems

Mamdani inference with ordinary membership functions: the weakest condition of
a rule clips its consequent, clipped consequents are joined by maximum, and the
answer is the centroid of the result over the sampled output range.
-/

namespace Handover.Fuzzy

open Scalar

/-- Description of a type-1 system. -/
abbrev TypeOneDefinition (α : Type) :=
  Definition α (Membership α)

/-- A type-1 system. -/
abbrev TypeOneSystem (α : Type) :=
  System α (Membership α)

/-- Weighted sum and total weight of a list of points with weights. -/
def moments {α : Type} [Scalar α] (points : List (α × α)) : α × α :=
  points.foldl (fun sums point => (sums.1 + point.1 * point.2, sums.2 + point.2)) (0, 0)

namespace TypeOne

variable {α : Type} [Scalar α]

/-- Activation of every output term. -/
def activate (system : TypeOneSystem α) (fuzzified : List (List α)) : List α :=
  activations system.output.terms.length system.indexed fuzzified

/-- Joined height of the clipped output terms at `x`. -/
def joined (terms : List (Term (Membership α))) (activation : List α) (x : α) : α :=
  (terms.zip activation).foldl
    (fun top pair => greater top (lesser pair.2 (pair.1.membership.degree x))) 0

/-- Joined height at every sample point of the output. -/
def aggregate (system : TypeOneSystem α) (activation : List α) : List (α × α) :=
  system.output.domain.samples.map fun x => (x, joined system.output.terms activation x)

/-- Centroid of the joined output. -/
def defuzzify (system : TypeOneSystem α) (activation : List α) : Except (FuzzyError α) α :=
  let (weighted, total) := moments (aggregate system activation)
  if total ≤ epsilon then .error (.emptyOutput system.output.name)
  else .ok (weighted / total)

/-- The answer of the system to one crisp value per input. -/
def evaluate (system : TypeOneSystem α) (crisp : List α) : Except (FuzzyError α) α := do
  let fuzzified ← system.fuzzify crisp
  defuzzify system (activate system fuzzified)

/-- Bytes of a sample point with its height. -/
def pointSize : Nat :=
  16

/-- Joined height at every sample point of the output, unless there are too many to hold
them with their heights. -/
def aggregate? (system : TypeOneSystem α) (activation : List α) : Option (List (α × α)) :=
  if system.output.domain.HoldsSamples pointSize then some (aggregate system activation)
  else none

/-- Centroid of the joined output, unless it has too many sample points. -/
def defuzzify? (system : TypeOneSystem α) (activation : List α) :
    Option (Except (FuzzyError α) α) :=
  if system.output.domain.HoldsSamples pointSize then some (defuzzify system activation)
  else none

/-- The answer of the system, unless its output has too many sample points. -/
def evaluate? (system : TypeOneSystem α) (crisp : List α) : Option (Except (FuzzyError α) α) :=
  system.answer? crisp fun fuzzified => defuzzify? system (activate system fuzzified)

end TypeOne

end Handover.Fuzzy
