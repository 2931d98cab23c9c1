import Handover.Fuzzy.Variable

/-!
# Rules

Rules are written with the names of variables and terms, so that they can stand
in a document.  Before they are run, every name is replaced by its place in the
inputs or the output; a name without a place is a fault.
-/

namespace Handover.Fuzzy

/-- The condition that a variable is in a term. -/
structure Clause where
  /-- Name of the input variable. -/
  variableName : String
  /-- Name of its term. -/
  term : String
deriving DecidableEq, Repr

/-- If all conditions hold, the output is in the consequent. -/
structure Rule where
  /-- The conditions. -/
  antecedents : List Clause
  /-- Name of a term of the output. -/
  consequent : String
deriving DecidableEq, Repr

/-- A rule with places instead of names. -/
structure IndexedRule where
  /-- Places of an input variable and of one of its terms. -/
  antecedents : List (Nat × Nat)
  /-- Place of a term of the output. -/
  consequent : Nat
deriving DecidableEq, Repr

/-- A rule from pairs of a variable and a term, and a consequent. -/
def Rule.ofPairs (conditions : List (String × String)) (consequent : String) : Rule where
  antecedents := conditions.map fun (variableName, term) => ⟨variableName, term⟩
  consequent := consequent

section Indexing

variable {α μ : Type}

/-- Place of the input variable with a given name. -/
def inputIndex? (inputs : List (Variable α μ)) (name : String) : Option Nat :=
  inputs.findIdx? fun input => input.name == name

/-- Places of the names in a condition of the rule with number `rule`. -/
def Clause.index (inputs : List (Variable α μ)) (rule : Nat) (clause : Clause) :
    Except (FuzzyError α) (Nat × Nat) :=
  match inputIndex? inputs clause.variableName with
  | none => .error (.unknownVariable rule clause.variableName)
  | some place =>
    match inputs[place]?.bind fun input => input.termIndex? clause.term with
    | some term => .ok (place, term)
    | none => .error (.unknownTerm rule clause.variableName clause.term)

/-- Places of the names in the rule with number `number`. -/
def Rule.index (inputs : List (Variable α μ)) (output : Variable α μ) (number : Nat)
    (rule : Rule) : Except (FuzzyError α) IndexedRule := do
  if rule.antecedents.isEmpty then
    .error (.emptyAntecedent number)
  let antecedents ← rule.antecedents.mapM (Clause.index inputs number)
  match output.termIndex? rule.consequent with
  | some consequent => .ok ⟨antecedents, consequent⟩
  | none => .error (.unknownTerm number output.name rule.consequent)

/-- Places of the names in all rules, counted from `number`. -/
def indexRules (inputs : List (Variable α μ)) (output : Variable α μ) (number : Nat) :
    List Rule → Except (FuzzyError α) (List IndexedRule)
  | [] => .ok []
  | rule :: rest => do
    let first ← rule.index inputs output number
    let others ← indexRules inputs output (number + 1) rest
    .ok (first :: others)

end Indexing

end Handover.Fuzzy
