import Handover.Proofs.Fuzzy.Failure
import Handover.Proofs.Inference.Assembly
import Handover.Proofs.Inference.Scan

/-!
# How evaluations fail

A link quality is inferred from two values, whatever the number of inputs that its
description asks for.  The desirability of a handover has one value for each of its
inputs.  So an evaluation fails because the output is empty, or because the description
of a link quality does not have two inputs, and then always.
-/

namespace Handover

open Fuzzy Trend Scalar

/-- The fault of an inference that a warning tells of. -/
def Warning.fault? {α : Type} : Warning α → Option (FuzzyError α)
  | servingUnavailable _ fault => some fault
  | notScored _ _ fault => some fault
  | _ => none

namespace Inference

namespace RuleBase

variable {α μ : Type}

/-- Description of the link quality of a cell in a role. -/
def linkQuality (rules : RuleBase α μ) : Role → Definition α μ
  | .serving => rules.servingQuality
  | .neighbour => rules.neighbourQuality

/-- Number of input variables of a link quality. -/
def linkInputs (rules : RuleBase α μ) (role : Role) : Nat :=
  (rules.linkQuality role).inputs.length

end RuleBase

variable {α : Type} [Scalar α]

/-! ## Systems of either kind -/

namespace InferenceSystem

/-- Every range of the system passes its check. -/
def Ranged : InferenceSystem α → Prop
  | typeOne system => system.Ranged
  | typeTwo system => system.Ranged

/-- The system takes this number of inputs, and their ranges pass their checks. -/
structure Takes (system : InferenceSystem α) (inputs : Nat) : Prop where
  ranged : system.Ranged
  arity : system.inputNames.length = inputs

theorem takes_typeOne {definition : Definition α (Membership α)} {system : TypeOneSystem α}
    (built : definition.build = .ok system) : (typeOne system).Takes definition.inputs.length :=
  have builds := Definition.builds_of_build built
  ⟨System.ranged_of_builds builds, System.length_inputNames_of_builds builds⟩

theorem takes_typeTwo {definition : Definition α (Footprint α)} {system : TypeTwoSystem α}
    (built : definition.build = .ok system) : (typeTwo system).Takes definition.inputs.length :=
  have builds := Definition.builds_of_build built
  ⟨System.ranged_of_builds builds, System.length_inputNames_of_builds builds⟩

variable {system : InferenceSystem α} {inputs : Nat} {crisp : List α}

theorem evaluate_error [FiniteOrder α] (takes : system.Takes inputs) {fault : FuzzyError α}
    (failed : system.evaluate crisp = .error fault) : fault.OfInference inputs crisp.length := by
  obtain ⟨ranged, rfl⟩ := takes
  cases system with
  | typeOne system =>
      rw [inputNames, System.inputNames, List.length_map]
      exact TypeOne.evaluate_error ranged failed
  | typeTwo system =>
      rw [inputNames, System.inputNames, List.length_map]
      exact TypeTwo.evaluate_error ranged failed

theorem evaluate_misfit (takes : system.Takes inputs) (differ : crisp.length ≠ inputs) :
    system.evaluate crisp = .error (.inputCount inputs crisp.length) := by
  obtain ⟨_, rfl⟩ := takes
  cases system with
  | typeOne system =>
      rw [inputNames, System.inputNames, List.length_map] at differ ⊢
      exact TypeOne.evaluate_misfit differ
  | typeTwo system =>
      rw [inputNames, System.inputNames, List.length_map] at differ ⊢
      exact TypeTwo.evaluate_misfit differ

end InferenceSystem

namespace Evaluator

/-- System of the link quality of a cell in a role. -/
def linkSystem (evaluator : Evaluator α) : Role → InferenceSystem α
  | .serving => evaluator.servingSystem
  | .neighbour => evaluator.neighbourSystem

/-- Link quality of a cell in a role. -/
def linkQuality (evaluator : Evaluator α) : Role → List α → Except (FuzzyError α) α
  | .serving => evaluator.servingQuality
  | .neighbour => evaluator.neighbourQuality

theorem linkQuality_eq (evaluator : Evaluator α) (role : Role) (samples : List α) :
    evaluator.linkQuality role samples = quality (evaluator.linkSystem role) role samples := by
  cases role <;> rfl

/-! ## Numbers of inputs -/

/-- The link qualities take these numbers of inputs. -/
structure Takes (evaluator : Evaluator α) (inputs : Role → Nat) : Prop where
  links : ∀ role, (evaluator.linkSystem role).Takes (inputs role)
  trigger : ∃ count, evaluator.triggerSystem.Takes count

theorem takes_of_assemble {μ δ : Type} [Grading μ α δ] {kind : System α μ → InferenceSystem α}
    (takes : ∀ {definition : Definition α μ} {system : System α μ},
      definition.build = .ok system → (kind system).Takes definition.inputs.length)
    {rules : RuleBase α μ} {threshold : α} {window : Nat} {evaluator : Evaluator α}
    (built : assemble kind rules threshold window = .ok evaluator) :
    evaluator.Takes rules.linkInputs := by
  obtain ⟨serving, neighbour, trigger, first, second, third, rfl⟩ := assemble_eq_ok_iff.mp built
  refine ⟨?_, _, takes third⟩
  rintro (_ | _)
  · exact takes first
  · exact takes second

/-! ## Faults -/

/-- An evaluation of a link quality or of the desirability has this fault. -/
inductive Fails (evaluator : Evaluator α) (fault : FuzzyError α) : Prop
  | link (role : Role) (samples : List α)
      (failed : evaluator.linkQuality role samples = .error fault)
  | trigger (serving neighbour : α)
      (failed : evaluator.triggerScore serving neighbour = .error fault)

section Faults

variable {evaluator : Evaluator α} {inputs : Role → Nat} {role : Role} {fault : FuzzyError α}

/-- Without samples nothing can be predicted, which counts as an empty output. -/
theorem linkQuality_error [FiniteOrder α] (takes : evaluator.Takes inputs) {samples : List α}
    (failed : evaluator.linkQuality role samples = .error fault) :
    fault.OfInference (inputs role) 2 := by
  rw [linkQuality_eq, quality] at failed
  split at failed
  · cases failed
    exact .silent _
  · exact InferenceSystem.evaluate_error (takes.links role) failed

theorem linkQuality_misfit (takes : evaluator.Takes inputs) (differ : inputs role ≠ 2)
    {samples : List α} (predicted : (forecast? role samples).isSome = true) :
    evaluator.linkQuality role samples = .error (.inputCount (inputs role) 2) := by
  obtain ⟨forecast, made⟩ := Option.isSome_iff_exists.mp predicted
  rw [linkQuality_eq, quality, made]
  exact InferenceSystem.evaluate_misfit (takes.links role) differ.symm

theorem exists_error_of_misfit (takes : evaluator.Takes inputs) (differ : inputs role ≠ 2)
    (samples : List α) : ∃ fault, evaluator.linkQuality role samples = .error fault := by
  cases predicted : (forecast? role samples).isSome with
  | true => exact ⟨_, linkQuality_misfit takes differ predicted⟩
  | false =>
      have unpredicted := Option.isSome_eq_false_iff.mp predicted
      rw [Option.isNone_iff_eq_none] at unpredicted
      exact ⟨_, by rw [linkQuality_eq, quality, unpredicted]⟩

/-- The desirability is given a value for every input. -/
theorem triggerScore_error [FiniteOrder α] (takes : evaluator.Takes inputs)
    {serving neighbour : α}
    (failed : evaluator.triggerScore serving neighbour = .error fault) : fault.Silent := by
  obtain ⟨count, trigger⟩ := takes.trigger
  have possible := InferenceSystem.evaluate_error trigger failed
  rw [List.length_map, trigger.arity] at possible
  exact possible.silent_of_eq

theorem Fails.silent_or [FiniteOrder α] (takes : evaluator.Takes inputs)
    (fails : evaluator.Fails fault) :
    fault.Silent ∨ ∃ role, inputs role ≠ 2 ∧ fault = .inputCount (inputs role) 2 := by
  cases fails with
  | trigger serving neighbour failed => exact .inl (triggerScore_error takes failed)
  | link role samples failed =>
      have possible := linkQuality_error takes failed
      exact possible.silent_or.imp_right fun misfit => ⟨role, misfit.1.symm, misfit.2⟩

end Faults

/-! ## Warnings -/

section Warnings

variable {evaluator : Evaluator α}

theorem fails_of_score {serving : α} {record : NeighbourRecord} {fault : FuzzyError α}
    (failed : evaluator.score serving record = .error fault) : evaluator.Fails fault := by
  rw [score] at failed
  cases computed : evaluator.neighbourQuality (samplesOf record.history) with
  | error other =>
      rw [computed] at failed
      cases failed
      exact .link .neighbour _ computed
  | ok neighbour =>
      rw [bind_of_ok computed] at failed
      exact .trigger serving neighbour failed

/-- A warning of an evaluation tells of a fault that one of its inferences had. -/
theorem fails_of_warning {state : UeState} {now : Instant} {servingRsrq : Level}
    {warning : Warning α}
    (warned : warning ∈ (evaluator.selectTarget state now servingRsrq).warnings) :
    ∃ fault, warning.fault? = some fault ∧ evaluator.Fails fault := by
  rw [selectTarget] at warned
  split at warned
  · next fault failed =>
    cases List.mem_singleton.mp warned
    exact ⟨fault, rfl, .link .serving _ failed⟩
  · obtain ⟨_, _, fault, rfl, record, failed⟩ := evaluator.scan_warnings warning warned
    exact ⟨fault, rfl, fails_of_score failed⟩

theorem selectTarget_choice_of_misfit {inputs : Role → Nat} (takes : evaluator.Takes inputs)
    (differ : inputs .serving ≠ 2) (state : UeState) (now : Instant) (servingRsrq : Level) :
    (evaluator.selectTarget state now servingRsrq).choice = none := by
  obtain ⟨fault, failed⟩ := exists_error_of_misfit takes differ
    (samplesOf (observe state servingRsrq).servingHistory)
  have unavailable : evaluator.servingQuality _ = .error fault := failed
  simp only [selectTarget, unavailable]

end Warnings

end Evaluator

end Inference

end Handover
