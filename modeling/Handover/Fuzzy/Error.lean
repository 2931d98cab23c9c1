import Handover.Numeric.Shortest

/-!
# Faults of fuzzy systems

Why a system cannot be built from its description, and why a built system has
no answer for some inputs.
-/

namespace Handover.Fuzzy

/-- What is wrong with the sampled range of a variable. -/
inductive DomainFault where
  /-- A bound is infinite or not a number. -/
  | infiniteBounds
  /-- The lower bound is not below the upper one. -/
  | emptyRange
  /-- Fewer than two sample points. -/
  | tooFewPoints
deriving DecidableEq, Repr

/-- What is wrong with the parameters of a membership function. -/
inductive ShapeFault where
  /-- The mean is infinite or not a number. -/
  | infiniteMean
  /-- The width is not positive and finite. -/
  | badSigma
  /-- The height is not in `(0, 1]`. -/
  | badHeight
  /-- A vertex is infinite or not a number. -/
  | infiniteVertex
  /-- The vertices of a triangle do not ascend or span nothing. -/
  | unorderedTriangle
  /-- The vertices of a trapezoid do not ascend. -/
  | unorderedTrapezoid
deriving DecidableEq, Repr

/-- A fault of a fuzzy system over the scalars `α`. -/
inductive FuzzyError (α : Type) where
  /-- The range of a variable is unusable. -/
  | invalidDomain (variableName : String) (fault : DomainFault)
  /-- A membership function has parameters out of range. -/
  | invalidMembership (term : String) (fault : ShapeFault)
  /-- Two terms of a variable, or two inputs of a system, share a name. -/
  | duplicate (name : String)
  /-- A variable has no terms. -/
  | noTerms (variableName : String)
  /-- A rule mentions a variable that is not an input. -/
  | unknownVariable (rule : Nat) (variableName : String)
  /-- A rule mentions a term that its variable does not have. -/
  | unknownTerm (rule : Nat) (variableName term : String)
  /-- A rule has no condition. -/
  | emptyAntecedent (rule : Nat)
  /-- There are no rules. -/
  | emptyRuleBase
  /-- The lower membership exceeds the upper one at a sample point. -/
  | invertedFootprint (term : String) (x : α)
  /-- The number of crisp inputs is not the number of input variables. -/
  | inputCount (expected actual : Nat)
  /-- No rule fired: the aggregated output has no area. -/
  | emptyOutput (variableName : String)
  /-- A crisp input cannot be moved into a range without order. -/
  | unorderedDomain (variableName : String)
deriving BEq, Repr

namespace DomainFault

/-- Text of a fault. -/
def message : DomainFault → String
  | infiniteBounds => "bounds must be finite"
  | emptyRange => "min must be below max"
  | tooFewPoints => "at least two sample points required"

end DomainFault

namespace ShapeFault

/-- Text of a fault. -/
def message : ShapeFault → String
  | infiniteMean => "mean must be finite"
  | badSigma => "sigma must be positive"
  | badHeight => "height must be in (0, 1]"
  | infiniteVertex => "vertices must be finite"
  | unorderedTriangle => "expected left <= peak <= right"
  | unorderedTrapezoid => "expected left <= left_top <= right_top <= right"

end ShapeFault

namespace FuzzyError

variable {α : Type}

/-- A name as it is quoted in messages. -/
def quoted (name : String) : String :=
  "'" ++ name ++ "'"

/-- Text of a fault. -/
def message [DecimalText α] : FuzzyError α → String
  | invalidDomain name fault =>
    "Invalid domain for variable " ++ quoted name ++ ": " ++ fault.message
  | invalidMembership term fault =>
    "Invalid membership function for term " ++ quoted term ++ ": " ++ fault.message
  | duplicate name => "Duplicate name " ++ quoted name
  | noTerms name => "Variable " ++ quoted name ++ " has no terms"
  | unknownVariable rule name =>
    "Rule " ++ toString rule ++ ": unknown variable " ++ quoted name
  | unknownTerm rule name term =>
    "Rule " ++ toString rule ++ ": variable " ++ quoted name ++ " has no term " ++ quoted term
  | emptyAntecedent rule => "Rule " ++ toString rule ++ " has no antecedents"
  | emptyRuleBase => "Rule base is empty"
  | invertedFootprint term x =>
    "Footprint of uncertainty inverted for term " ++ quoted term ++ " at x=" ++
      DecimalText.text x
  | inputCount expected actual =>
    "Expected " ++ toString expected ++ " inputs, got " ++ toString actual
  | emptyOutput name => "Aggregated output of " ++ quoted name ++ " has zero area"
  | unorderedDomain name => "Range of variable " ++ quoted name ++ " has no order"

end FuzzyError

end Handover.Fuzzy
