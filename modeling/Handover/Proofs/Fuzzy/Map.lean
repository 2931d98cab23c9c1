import Handover.Fuzzy.System

/-!
# Systems with other memberships

Names, ranges and rules do not depend on the memberships of the terms.  If the
memberships of a system are replaced by others that pass the same checks, then
the new system is built from its description exactly if the old one is, and its
degrees are those of the new memberships.
-/

namespace Handover.Fuzzy

variable {α μ ν : Type}

/-- The term with another membership. -/
def Term.map (change : μ → ν) (term : Term μ) : Term ν :=
  ⟨term.name, change term.membership⟩

/-- The variable with other memberships. -/
def Variable.map (change : μ → ν) (item : Variable α μ) : Variable α ν :=
  ⟨item.name, item.domain, item.terms.map (Term.map change)⟩

/-- The description with other memberships. -/
def Definition.map (change : μ → ν) (definition : Definition α μ) : Definition α ν :=
  ⟨definition.inputs.map (Variable.map change), definition.output.map change, definition.rules⟩

/-- The system with other memberships. -/
def System.map (change : μ → ν) (system : System α μ) : System α ν :=
  ⟨system.inputs.map (Variable.map change), system.output.map change, system.rules,
    system.indexed⟩

/-! ## Rules -/

section Rules

variable (change : μ → ν)

theorem Variable.termIndex?_map (item : Variable α μ) (name : String) :
    (item.map change).termIndex? name = item.termIndex? name :=
  List.findIdx?_map

theorem inputIndex?_map (inputs : List (Variable α μ)) (name : String) :
    inputIndex? (inputs.map (Variable.map change)) name = inputIndex? inputs name :=
  List.findIdx?_map

theorem Clause.index_map (inputs : List (Variable α μ)) (rule : Nat) (clause : Clause) :
    clause.index (inputs.map (Variable.map change)) rule = clause.index inputs rule := by
  unfold Clause.index
  rw [inputIndex?_map]
  cases inputIndex? inputs clause.variableName with
  | none => rfl
  | some place =>
      have same : ((inputs.map (Variable.map change))[place]?.bind fun input =>
            input.termIndex? clause.term) =
          inputs[place]?.bind fun input => input.termIndex? clause.term := by
        rw [List.getElem?_map, Option.bind_map]
        congr 1
        funext input
        exact input.termIndex?_map change clause.term
      simp only [same]

theorem Rule.index_map (inputs : List (Variable α μ)) (output : Variable α μ) (number : Nat)
    (rule : Rule) :
    rule.index (inputs.map (Variable.map change)) (output.map change) number =
      rule.index inputs output number := by
  have clauses : Clause.index (inputs.map (Variable.map change)) number =
      Clause.index inputs number := funext (Clause.index_map change inputs number)
  unfold Rule.index
  rw [clauses, output.termIndex?_map]
  rfl

theorem indexRules_map (inputs : List (Variable α μ)) (output : Variable α μ) (number : Nat)
    (rules : List Rule) :
    indexRules (inputs.map (Variable.map change)) (output.map change) number rules =
      indexRules inputs output number rules := by
  induction rules generalizing number with
  | nil => rfl
  | cons rule rest ih => rw [indexRules, indexRules, Rule.index_map, ih]

end Rules

variable [Scalar α] {δ ε : Type} [Grading μ α δ] [Grading ν α ε] {change : μ → ν}

/-! ## Building -/

section Build

variable (same : ∀ name domain membership,
  Grading.validate name domain (change membership) = Grading.validate name domain membership)

include same

theorem Variable.validate_map (item : Variable α μ) :
    (item.map change).validate = item.validate := by
  simp only [Variable.validate, Variable.map, List.isEmpty_map, List.forM_eq_forM, List.forM_map,
    List.map_map, Term.map, same]
  rfl

/-- A description with other memberships is built exactly if the old one is, and
fails with the same fault. -/
theorem Definition.build_map (definition : Definition α μ) :
    (definition.map change).build = definition.build.map (System.map change) := by
  have names : (definition.inputs.map (Variable.map change)).map Variable.name =
      definition.inputs.map Variable.name := List.map_map
  simp only [Definition.build, Definition.map, List.forM_eq_forM, List.forM_map,
    Variable.validate_map same, names, indexRules_map]
  -- The checks come first on both sides; the systems at their end correspond.
  change _ = System.map change <$> (_ : Except (FuzzyError α) (System α μ))
  cases definition.rules.isEmpty with
  | true => simp only [map_bind, if_true]; rfl
  | false => simp only [map_bind, Bool.false_eq_true, if_false]; rfl

end Build

/-! ## Degrees -/

section Degrees

variable {copy : δ → ε}
  (same : ∀ membership x, Grading.degree (change membership) x =
    copy (Grading.degree membership x))

include same

theorem Variable.fuzzify?_map (item : Variable α μ) (value : α) :
    (item.map change).fuzzify? value = (item.fuzzify? value).map (List.map copy) := by
  simp only [Variable.fuzzify?, Variable.map, Option.map_map]
  congr 1
  funext x
  simp only [Function.comp_apply, List.map_map]
  exact List.map_congr_left fun (term : Term μ) _ => same term.membership x

theorem System.fuzzifyAll_map (pairs : List (Variable α μ × α)) :
    fuzzifyAll (pairs.map fun pair => (pair.1.map change, pair.2)) =
      (fuzzifyAll pairs).map (List.map (List.map copy)) := by
  induction pairs with
  | nil => rfl
  | cons pair rest ih =>
      rcases pair with ⟨input, value⟩
      simp only [List.map_cons, fuzzifyAll, input.fuzzify?_map same, ih]
      cases input.fuzzify? value with
      | none => rfl
      | some degrees => cases fuzzifyAll rest <;> rfl

/-- The degrees of a system with other memberships are the other degrees. -/
theorem System.fuzzify_map (system : System α μ) (crisp : List α) :
    (system.map change).fuzzify crisp =
      (system.fuzzify crisp).map (List.map (List.map copy)) := by
  have pairs : (system.inputs.map (Variable.map change)).zip crisp =
      (system.inputs.zip crisp).map fun pair => (pair.1.map change, pair.2) := by
    rw [List.zip_map_left]
    rfl
  simp only [System.fuzzify, System.map, List.length_map, pairs, fuzzifyAll_map same]
  split <;> rfl

end Degrees

end Handover.Fuzzy
