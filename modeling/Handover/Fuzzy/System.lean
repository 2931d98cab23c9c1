import Handover.Fuzzy.Rule

/-!
# Systems

A definition lists the input variables, the output variable and the rules of a
fuzzy system.  Building checks all of it and resolves the names; a built system
turns crisp inputs into the degrees of every input term.
-/

namespace Handover.Fuzzy

open Scalar

/-- Description of a system whose terms carry memberships `μ`. -/
structure Definition (α μ : Type) where
  /-- Input variables. -/
  inputs : List (Variable α μ)
  /-- Output variable. -/
  output : Variable α μ
  /-- Rules, by name. -/
  rules : List Rule
deriving BEq, Repr

/-- A system whose names have been resolved. -/
structure System (α μ : Type) where
  /-- Input variables. -/
  inputs : List (Variable α μ)
  /-- Output variable. -/
  output : Variable α μ
  /-- Rules, by name. -/
  rules : List Rule
  /-- Rules, by place. -/
  indexed : List IndexedRule
deriving Repr

variable {α μ δ : Type} [Scalar α] [Grading μ α δ]

/-- Checks the inputs, the output and the input names, and resolves the rules,
in this order. -/
def Definition.build (definition : Definition α μ) : Except (FuzzyError α) (System α μ) := do
  definition.inputs.forM Variable.validate
  definition.output.validate
  checkUnique (definition.inputs.map Variable.name)
  if definition.rules.isEmpty then
    .error .emptyRuleBase
  let indexed ← indexRules definition.inputs definition.output 0 definition.rules
  .ok ⟨definition.inputs, definition.output, definition.rules, indexed⟩

namespace System

/-- Names of the input variables. -/
def inputNames (system : System α μ) : List String :=
  system.inputs.map Variable.name

/-- Degrees of paired variables and values. -/
def fuzzifyAll : List (Variable α μ × α) → Except (FuzzyError α) (List (List δ))
  | [] => .ok []
  | (input, value) :: rest =>
    match input.fuzzify? value with
    | none => .error (.unorderedDomain input.name)
    | some degrees => do
      let others ← fuzzifyAll rest
      .ok (degrees :: others)

/-- Degrees of one crisp value per input, in input order. -/
def fuzzify (system : System α μ) (crisp : List α) : Except (FuzzyError α) (List (List δ)) :=
  if crisp.length = system.inputs.length then
    fuzzifyAll (system.inputs.zip crisp)
  else
    .error (.inputCount system.inputs.length crisp.length)

/-- The answer made of the degrees of one crisp value per input, if it can be made. -/
def answer? (system : System α μ) (crisp : List α)
    (made : List (List δ) → Option (Except (FuzzyError α) α)) :
    Option (Except (FuzzyError α) α) :=
  match system.fuzzify crisp with
  | .error fault => some (.error fault)
  | .ok fuzzified => made fuzzified

end System

/-- The degree at a place, or `missing` if there is none. -/
def degreeAt (missing : δ) (fuzzified : List (List δ)) (place : Nat × Nat) : δ :=
  match fuzzified[place.1]? with
  | none => missing
  | some degrees => degrees[place.2]?.getD missing

/-- A rule fires as strongly as its weakest condition. -/
def IndexedRule.firing (fuzzified : List (List α)) (rule : IndexedRule) : α :=
  rule.antecedents.foldl (fun weakest place => lesser weakest (degreeAt 0 fuzzified place)) 1

/-- A term of the output is as active as the strongest rule that concludes
it. -/
def activationOf (fuzzified : List (List α)) (rules : List IndexedRule) (term : Nat) : α :=
  rules.foldl
    (fun strongest rule =>
      if rule.consequent = term then greater strongest (rule.firing fuzzified) else strongest)
    0

/-- Activation of every term of an output with `terms` terms. -/
def activations (terms : Nat) (rules : List IndexedRule) (fuzzified : List (List α)) : List α :=
  (List.range terms).map (activationOf fuzzified rules)

end Handover.Fuzzy
