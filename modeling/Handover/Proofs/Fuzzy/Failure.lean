import Handover.Fuzzy.TypeTwo
import Handover.Proofs.Fuzzy.Build
import Handover.Proofs.Numeric.FiniteOrder

/-!
# How inference fails

The ranges of a system that was built are in order, so that every value can be moved
into them.  With one value per input variable an inference then fails only if no rule
fires; with another number of values it always fails.
-/

namespace Handover.Fuzzy

open Scalar

namespace FuzzyError

variable {α : Type}

/-- The output is empty: no rule fired, or there was nothing to infer from. -/
def Silent (fault : FuzzyError α) : Prop :=
  ∃ name, fault = .emptyOutput name

/-- A fault of an inference with some number of input variables that was given some
number of values. -/
inductive OfInference (inputs values : Nat) : FuzzyError α → Prop
  | silent (name : String) : OfInference inputs values (.emptyOutput name)
  | misfit (differ : values ≠ inputs) : OfInference inputs values (.inputCount inputs values)

theorem OfInference.silent_or {inputs values : Nat} {fault : FuzzyError α}
    (possible : fault.OfInference inputs values) :
    fault.Silent ∨ values ≠ inputs ∧ fault = .inputCount inputs values := by
  cases possible with
  | silent name => exact .inl ⟨name, rfl⟩
  | misfit differ => exact .inr ⟨differ, rfl⟩

theorem OfInference.silent_of_eq {inputs : Nat} {fault : FuzzyError α}
    (possible : fault.OfInference inputs inputs) : fault.Silent :=
  possible.silent_or.resolve_right fun misfit => misfit.1 rfl

end FuzzyError

variable {α : Type} [Scalar α]

/-! ## Ranges -/

theorem Domain.finite_of_check {domain : Domain α} (checked : domain.check = .ok ()) :
    isFinite domain.min = true ∧ isFinite domain.max = true ∧ ¬domain.max ≤ domain.min := by
  unfold check at checked
  split at checked
  · cases checked
  · next finite =>
    obtain ⟨min, max⟩ := Decidable.not_not.mp finite
    split at checked
    · cases checked
    · next spans => exact ⟨min, max, spans⟩

namespace System

variable {μ : Type}

/-- Every range of the system passes its check. -/
def Ranged (system : System α μ) : Prop :=
  ∀ input ∈ system.inputs, input.domain.check = .ok ()

theorem ranged_of_builds {δ : Type} [Grading μ α δ] {definition : Definition α μ}
    {system : System α μ} (builds : definition.Builds system) : system.Ranged := by
  intro input member
  rw [builds.inputs] at member
  exact (builds.validInputs input member).domain

theorem length_inputNames_of_builds {δ : Type} [Grading μ α δ] {definition : Definition α μ}
    {system : System α μ} (builds : definition.Builds system) :
    system.inputNames.length = definition.inputs.length := by
  rw [inputNames, List.length_map, builds.inputs]

end System

variable [FiniteOrder α]

theorem Domain.ordered_of_check {domain : Domain α} (checked : domain.check = .ok ()) :
    domain.min ≤ domain.max := by
  obtain ⟨min, max, spans⟩ := finite_of_check checked
  exact (FiniteOrder.le_total _ _ min max).resolve_right spans

theorem Domain.exists_clamp? {domain : Domain α} (checked : domain.check = .ok ()) (x : α) :
    ∃ moved, domain.clamp? x = some moved := by
  rw [clamp?]
  split
  · exact ⟨_, rfl⟩
  · rw [if_pos (ordered_of_check checked)]
    exact ⟨_, rfl⟩

/-! ## Degrees -/

section Degrees

variable {μ δ : Type} [Grading μ α δ]

theorem Variable.exists_fuzzify? {item : Variable α μ} (checked : item.domain.check = .ok ())
    (value : α) : ∃ degrees, item.fuzzify? value = some degrees := by
  obtain ⟨moved, clamped⟩ := Domain.exists_clamp? checked value
  exact ⟨_, by rw [fuzzify?, clamped, Option.map_some]⟩

namespace System

theorem exists_fuzzifyAll {pairs : List (Variable α μ × α)}
    (checked : ∀ pair ∈ pairs, pair.1.domain.check = .ok ()) :
    ∃ degrees, fuzzifyAll pairs = .ok degrees := by
  induction pairs with
  | nil => exact ⟨[], rfl⟩
  | cons pair rest ih =>
      obtain ⟨first, others⟩ := List.forall_mem_cons.mp checked
      obtain ⟨degrees, graded⟩ := Variable.exists_fuzzify? first pair.2
      obtain ⟨remaining, all⟩ := ih others
      exact ⟨degrees :: remaining, by simp only [fuzzifyAll, graded, all]; rfl⟩

/-- A system is only particular about how many values it is given. -/
theorem exists_fuzzify {system : System α μ} (ranged : system.Ranged) {crisp : List α}
    (fits : crisp.length = system.inputs.length) :
    ∃ degrees, system.fuzzify crisp = .ok degrees := by
  rw [fuzzify, if_pos fits]
  exact exists_fuzzifyAll fun pair member => ranged pair.1 (List.of_mem_zip member).1

omit [FiniteOrder α] in
theorem fuzzify_misfit {system : System α μ} {crisp : List α}
    (differ : crisp.length ≠ system.inputs.length) :
    system.fuzzify crisp = .error (.inputCount system.inputs.length crisp.length) := by
  rw [fuzzify, if_neg differ]

end System

end Degrees

/-! ## Answers -/

omit [FiniteOrder α] in
theorem TypeOne.defuzzify_error {system : TypeOneSystem α} {activation : List α}
    {fault : FuzzyError α} (failed : defuzzify system activation = .error fault) :
    fault = .emptyOutput system.output.name := by
  simp only [defuzzify] at failed
  split at failed
  · cases failed
    rfl
  · cases failed

omit [FiniteOrder α] in
theorem TypeTwo.defuzzify_error {system : TypeTwoSystem α} {activation : IntervalActivation α}
    {fault : FuzzyError α} (failed : defuzzify system activation = .error fault) :
    fault = .emptyOutput system.output.name := by
  simp only [defuzzify, reduceType] at failed
  split at failed
  · cases failed
  · cases failed
    rfl

section Answers

variable {μ δ τ : Type} [Grading μ α δ] {system : System α μ} {crisp : List α}

/-- What comes after the degrees does not depend on the number of values. -/
theorem System.fuzzify_bind_error (ranged : system.Ranged)
    {answer : List (List δ) → Except (FuzzyError α) τ} {fault : FuzzyError α}
    (silent : ∀ degrees, answer degrees = .error fault → fault = .emptyOutput system.output.name)
    (failed : system.fuzzify crisp >>= answer = .error fault) :
    fault.OfInference system.inputs.length crisp.length := by
  by_cases fits : crisp.length = system.inputs.length
  · obtain ⟨degrees, graded⟩ := System.exists_fuzzify ranged fits
    rw [bind_of_ok graded] at failed
    rw [silent degrees failed]
    exact .silent _
  · rw [System.fuzzify_misfit fits] at failed
    cases failed
    exact .misfit fits

end Answers

theorem TypeOne.evaluate_error {system : TypeOneSystem α} (ranged : system.Ranged)
    {crisp : List α} {fault : FuzzyError α} (failed : evaluate system crisp = .error fault) :
    fault.OfInference system.inputs.length crisp.length :=
  System.fuzzify_bind_error ranged (fun _ => defuzzify_error) failed

theorem TypeTwo.evaluate_error {system : TypeTwoSystem α} (ranged : system.Ranged)
    {crisp : List α} {fault : FuzzyError α} (failed : evaluate system crisp = .error fault) :
    fault.OfInference system.inputs.length crisp.length :=
  System.fuzzify_bind_error ranged (fun _ => defuzzify_error) failed

omit [FiniteOrder α] in
theorem TypeOne.evaluate_misfit {system : TypeOneSystem α} {crisp : List α}
    (differ : crisp.length ≠ system.inputs.length) :
    evaluate system crisp = .error (.inputCount system.inputs.length crisp.length) := by
  rw [evaluate, System.fuzzify_misfit differ]
  rfl

omit [FiniteOrder α] in
theorem TypeTwo.evaluate_misfit {system : TypeTwoSystem α} {crisp : List α}
    (differ : crisp.length ≠ system.inputs.length) :
    evaluate system crisp = .error (.inputCount system.inputs.length crisp.length) := by
  rw [evaluate, System.fuzzify_misfit differ]
  rfl

end Handover.Fuzzy
