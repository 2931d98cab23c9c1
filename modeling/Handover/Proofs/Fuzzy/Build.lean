import Handover.Fuzzy.System
import Handover.Proofs.Success
import Mathlib.Logic.Basic

/-!
# What a built system has passed

Building goes through checks in order and changes nothing.  A system that comes
out has the variables and the rules of its description, and they pass every
check.
-/

namespace Handover.Fuzzy

theorem forM_eq_ok {ρ ε : Type} {items : List ρ} {check : ρ → Except ε Unit} :
    items.forM check = .ok () ↔ ∀ item ∈ items, check item = .ok () := by
  induction items with
  | nil => exact iff_of_true rfl nofun
  | cons item rest ih =>
      rw [List.forall_mem_cons, ← ih]
      constructor
      · intro passed
        rcases exists_of_bind_eq_ok passed with ⟨_, first, others⟩
        exact ⟨first, others⟩
      · rintro ⟨first, others⟩
        exact (congrArg (· >>= _) first).trans others

variable {α μ δ : Type} [Scalar α] [Grading μ α δ]

/-- A variable that passes its checks. -/
structure Variable.Valid (item : Variable α μ) : Prop where
  domain : item.domain.check = .ok ()
  nonempty : item.terms ≠ []
  unique : firstRepeat? [] (item.terms.map Term.name) = none
  terms : ∀ term ∈ item.terms,
    Grading.validate term.name item.domain term.membership = .ok ()

theorem Membership.check_of_validate {name : String} {shape : Membership α}
    (passed : shape.validate name = .ok ()) : shape.check = .ok () := by
  unfold validate at passed
  split at passed
  · next checked => exact checked
  · cases passed

theorem Membership.validate_of_check {name : String} {shape : Membership α}
    (checked : shape.check = .ok ()) : shape.validate name = .ok () := by
  rw [validate, checked]

theorem Footprint.checks_of_validate {name : String} {samples : List α} {footprint : Footprint α}
    (passed : footprint.validate name samples = .ok ()) :
    footprint.lower.check = .ok () ∧ footprint.upper.check = .ok () ∧
      ∀ x ∈ samples, ¬footprint.InvertedAt x := by
  rcases exists_of_bind_eq_ok passed with ⟨_, lower, passed⟩
  rcases exists_of_bind_eq_ok passed with ⟨_, upper, passed⟩
  refine ⟨Membership.check_of_validate lower, Membership.check_of_validate upper, ?_⟩
  split at passed
  · cases passed
  · next level =>
    intro x member inverted
    exact List.find?_eq_none.mp level x member (decide_eq_true inverted)

theorem Footprint.validate_of_checks {name : String} {samples : List α} {footprint : Footprint α}
    (lower : footprint.lower.check = .ok ()) (upper : footprint.upper.check = .ok ())
    (level : ∀ x ∈ samples, ¬footprint.InvertedAt x) :
    footprint.validate name samples = .ok () := by
  have uncrossed : samples.find? (fun x => footprint.InvertedAt x) = none := by
    refine List.find?_eq_none.mpr fun x member => ?_
    rw [decide_eq_true_eq]
    exact level x member
  rw [validate, bind_of_ok (Membership.validate_of_check lower),
    bind_of_ok (Membership.validate_of_check upper), uncrossed]

theorem Domain.check_of_validate {name : String} {domain : Domain α}
    (passed : domain.validate name = .ok ()) : domain.check = .ok () := by
  unfold validate at passed
  split at passed
  · next checked => exact checked
  · cases passed

omit [Scalar α] in
theorem firstRepeat?_of_checkUnique {names : List String}
    (passed : (checkUnique names : Except (FuzzyError α) Unit) = .ok ()) :
    firstRepeat? [] names = none := by
  unfold checkUnique at passed
  split at passed
  · cases passed
  · next unique => exact unique

theorem Variable.valid_of_validate {item : Variable α μ} (passed : item.validate = .ok ()) :
    item.Valid := by
  rcases exists_of_bind_eq_ok passed with ⟨_, domain, passed⟩
  cases empty : item.terms.isEmpty with
  | true =>
      rw [empty] at passed
      cases passed
  | false =>
      rw [empty] at passed
      rcases exists_of_bind_eq_ok passed with ⟨_, unique, terms⟩
      exact ⟨Domain.check_of_validate domain, List.isEmpty_eq_false_iff.mp empty,
        firstRepeat?_of_checkUnique unique, forM_eq_ok.mp terms⟩

omit [Scalar α] in
theorem checkUnique_of_firstRepeat? {names : List String} (unique : firstRepeat? [] names = none) :
    (checkUnique names : Except (FuzzyError α) Unit) = .ok () := by
  rw [checkUnique, unique]

theorem Variable.validate_of_valid {item : Variable α μ} (valid : item.Valid) :
    item.validate = .ok () := by
  have domain : item.domain.validate item.name = .ok () := by
    rw [Domain.validate, valid.domain]
  have someTerm : item.terms.isEmpty = false := List.isEmpty_eq_false_iff.mpr valid.nonempty
  rw [validate, bind_of_ok domain, someTerm]
  exact (bind_of_ok (checkUnique_of_firstRepeat? valid.unique) _).trans (forM_eq_ok.mpr valid.terms)

/-- A system that was built from a description. -/
structure Definition.Builds (definition : Definition α μ) (system : System α μ) : Prop where
  inputs : system.inputs = definition.inputs
  output : system.output = definition.output
  rules : system.rules = definition.rules
  validInputs : ∀ input ∈ definition.inputs, input.Valid
  validOutput : definition.output.Valid
  unique : firstRepeat? [] (definition.inputs.map Variable.name) = none
  nonempty : definition.rules ≠ []
  indexed : indexRules definition.inputs definition.output 0 definition.rules =
    .ok system.indexed

theorem Definition.builds_of_build {definition : Definition α μ} {system : System α μ}
    (built : definition.build = .ok system) : definition.Builds system := by
  rcases exists_of_bind_eq_ok built with ⟨_, inputs, built⟩
  rcases exists_of_bind_eq_ok built with ⟨_, output, built⟩
  rcases exists_of_bind_eq_ok built with ⟨_, unique, built⟩
  cases empty : definition.rules.isEmpty with
  | true =>
      rw [empty] at built
      cases built
  | false =>
      rw [empty] at built
      rcases exists_of_bind_eq_ok built with ⟨indexed, resolved, built⟩
      cases built
      exact ⟨rfl, rfl, rfl,
        fun input member => Variable.valid_of_validate (forM_eq_ok.mp inputs input member),
        Variable.valid_of_validate output, firstRepeat?_of_checkUnique unique,
        List.isEmpty_eq_false_iff.mp empty, resolved⟩

/-- What passes the checks can be built. -/
theorem Definition.build_of_valid {definition : Definition α μ}
    (inputs : ∀ input ∈ definition.inputs, input.Valid) (output : definition.output.Valid)
    (unique : firstRepeat? [] (definition.inputs.map Variable.name) = none)
    (nonempty : definition.rules ≠ []) {indexed : List IndexedRule}
    (resolved : indexRules definition.inputs definition.output 0 definition.rules = .ok indexed) :
    definition.build =
      .ok ⟨definition.inputs, definition.output, definition.rules, indexed⟩ := by
  have validated : definition.inputs.forM Variable.validate = .ok () :=
    forM_eq_ok.mpr fun input member => Variable.validate_of_valid (inputs input member)
  have someRule : definition.rules.isEmpty = false := List.isEmpty_eq_false_iff.mpr nonempty
  rw [build, bind_of_ok validated, bind_of_ok (Variable.validate_of_valid output),
    bind_of_ok (checkUnique_of_firstRepeat? unique), someRule]
  exact bind_of_ok resolved _

end Handover.Fuzzy
