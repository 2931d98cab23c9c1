import Handover.Trend.Summation

/-!
# Linear equations

Gaussian elimination with partial pivoting.  In every round the equation with
the largest leading coefficient is exchanged with the first one and subtracted
from the others so that their leading unknown disappears; the remaining
equations are solved for the remaining unknowns, and the exchanged equation
then yields the leading one.
-/

namespace Handover.Trend

open Scalar

/-- The equation `coefficients · unknowns = constant`. -/
structure Equation (α : Type) where
  /-- Factors of the unknowns. -/
  coefficients : List α
  /-- Value of the sum. -/
  constant : α
deriving DecidableEq, Repr

variable {α : Type} [Scalar α]

namespace Equation

/-- Factor of the first unknown. -/
def lead (equation : Equation α) : α :=
  equation.coefficients.headD 0

/-- Factors of the other unknowns. -/
def others (equation : Equation α) : List α :=
  equation.coefficients.tail

/-- The equation without its first unknown, which the pivot equation
removes. -/
def eliminate (pivot equation : Equation α) : Equation α :=
  let factor := equation.lead / pivot.lead
  { coefficients := List.zipWith (fun x p => x - factor * p) equation.others pivot.others
    constant := equation.constant - factor * pivot.constant }

/-- Value of the first unknown, given the others. -/
def resolve (pivot : Equation α) (solution : List α) : α :=
  (pivot.constant - dot pivot.others solution) / pivot.lead

end Equation

/-- The first magnitude is at most the second one; what is not a number is
beyond every number. -/
def MagnitudeLE (x y : α) : Prop :=
  isNaN y ∨ (¬isNaN x ∧ magnitude x ≤ magnitude y)

instance (x y : α) : Decidable (MagnitudeLE x y) :=
  inferInstanceAs (Decidable (_ ∨ _))

/-- Index and magnitude of the largest value so far, continued over a list whose
first element has index `index`; a later value wins a tie. -/
def largestFrom (index best : Nat) (value : α) : List α → Nat
  | [] => best
  | x :: rest =>
    if MagnitudeLE value x then largestFrom (index + 1) index x rest
    else largestFrom (index + 1) best value rest

/-- Index of the last value of largest magnitude. -/
def largestIndex : List α → Nat
  | [] => 0
  | x :: rest => largestFrom 1 0 x rest

/-- The list with its first element and the one at `index` exchanged. -/
def exchangeFirst {β : Type} (first : β) (rest : List β) (index : Nat) : β × List β :=
  match index with
  | 0 => (first, rest)
  | other + 1 =>
    match rest[other]? with
    | none => (first, rest)
    | some found => (found, rest.set other first)

/-- A pivot below this magnitude makes the equations count as singular. -/
def leastPivot : α :=
  ofDecimal 1 12

/-- Solution of as many equations as there are unknowns, unless they are
singular. -/
def solve? : Nat → List (Equation α) → Option (List α)
  | 0, _ => some []
  | _ + 1, [] => none
  | unknowns + 1, first :: rest =>
    let (pivot, others) :=
      exchangeFirst first rest (largestIndex ((first :: rest).map Equation.lead))
    if magnitude pivot.lead < leastPivot then none
    else
      match solve? unknowns (others.map pivot.eliminate) with
      | none => none
      | some solution => some (pivot.resolve solution :: solution)

end Handover.Trend
