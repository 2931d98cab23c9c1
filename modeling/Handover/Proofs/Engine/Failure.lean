import Handover.Proofs.Engine.Rejection
import Handover.Proofs.Strategy.Failure

/-!
# Faults of inferences in an engine

An engine that has started fails to infer only with an empty output, provided that its
rule base describes both link qualities with two inputs.  The construction of a rule
base does not ask for that.
-/

namespace Handover.Engine

open Fuzzy Inference Strategy Trend

variable {α : Type} [Scalar α] {engine : Engine α} {part : FuzzyInference α}

omit [Scalar α] in
theorem fault?_of_acknowledge (stats : DispatchStats) (state : UeState)
    (outcome : HandoverOutcome) :
    ∀ warning ∈ (Dispatch.acknowledge (α := α) stats state outcome).2, warning.fault? = none := by
  unfold Dispatch.acknowledge
  split
  · cases outcome with
    | completed => nofun
    | failed => exact List.forall_mem_singleton.mpr rfl
  · nofun

theorem evaluated_of_evaluate {ue : UeId} {id : MeasId} {report : Report} {warning : Warning α}
    (warned : warning ∈ (engine.evaluate ue id report).warnings) {fault : FuzzyError α}
    (told : warning.fault? = some fault) :
    warning ∈ (engine.strategy.evaluate ue id report engine.store).warnings := by
  rw [evaluate] at warned
  split at warned
  · exact warned
  · rcases List.mem_append.mp warned with inferred | unusable
    · exact inferred
    · cases List.mem_singleton.mp unusable
      cases told

/-- Only evaluations warn of faults of inferences. -/
theorem evaluated_of_handle {request : Request} {warning : Warning α}
    (warned : warning ∈ (engine.handle request).warnings) {fault : FuzzyError α}
    (told : warning.fault? = some fault) : ∃ ue id report,
      warning ∈ (engine.strategy.evaluate ue id report engine.store).warnings := by
  cases request with
  | evaluate ue id report => exact ⟨ue, id, report, evaluated_of_evaluate warned told⟩
  | report ue id report =>
      rcases List.mem_append.mp warned with evaluated | offered
      · exact ⟨ue, id, report, evaluated_of_evaluate evaluated told⟩
      · rw [offer] at offered
        split at offered <;> cases offered
  | offer decision =>
      change warning ∈ (engine.offer decision).warnings at warned
      rw [offer] at warned
      split at warned <;> cases warned
  | connect ue cell time => cases warned
  | remove ue => cases warned
  | acknowledge ue outcome =>
      change warning ∈ (engine.acknowledge ue outcome).warnings at warned
      rw [acknowledge] at warned
      split at warned
      · cases warned
      · cases (fault?_of_acknowledge _ _ outcome warning warned).symm.trans told
  | conclude ue outcome time =>
      change warning ∈ (engine.conclude ue outcome time).warnings at warned
      rw [conclude] at warned
      split at warned
      · cases warned
      · cases (fault?_of_acknowledge _ _ outcome warning warned).symm.trans told

/-- Whatever an operation warns of, a fault of an inference in it is one of the
evaluator. -/
theorem fails_of_handle (fuzzy : engine.strategy.fuzzy? = some part) {request : Request}
    {warning : Warning α} (warned : warning ∈ (engine.handle request).warnings)
    {fault : FuzzyError α} (told : warning.fault? = some fault) :
    part.evaluator.Fails fault := by
  obtain ⟨ue, id, report, evaluated⟩ := evaluated_of_handle warned told
  rw [HandoverStrategy.evaluate_of_fuzzy fuzzy] at evaluated
  exact FuzzyInference.fails_of_warning evaluated told

/-- A run warns of this fault of an inference. -/
def Warns (engine : Engine α) (requests : List Request) (fault : FuzzyError α) : Prop :=
  ∃ step ∈ engine.steps requests, ∃ warning ∈ step.warnings, warning.fault? = some fault

theorem Warns.fails (fuzzy : engine.strategy.fuzzy? = some part) {requests : List Request}
    {fault : FuzzyError α} (warns : engine.Warns requests fault) :
    part.evaluator.Fails fault := by
  induction requests generalizing engine with
  | nil =>
      obtain ⟨step, made, _⟩ := warns
      cases made
  | cons request rest ih =>
      obtain ⟨step, made, warning, warned, told⟩ := warns
      rcases List.mem_cons.mp made with rfl | later
      · exact fails_of_handle fuzzy warned told
      · refine ih ?_ ⟨step, later, warning, warned, told⟩
        rw [(confined_handle request).strategy, fuzzy]

/-- A started engine with a fuzzy algorithm runs an evaluator that takes the inputs of
the configured rule base. -/
theorem takes_of_start {config : EngineConfig α} (started : (start config).result = .ok engine)
    {inputs : Role → Nat} (fuzzy : config.algorithm.linkInputs? = some inputs)
    (requests : List Request) :
    ∃ part, engine.strategy.fuzzy? = some part ∧
      (engine.run requests).strategy.fuzzy? = some part ∧ part.evaluator.Takes inputs := by
  obtain ⟨interval, strategy, _, chosen, registered, rfl⟩ := start_eq_ok started
  obtain ⟨part, known, takes⟩ := HandoverStrategy.takes_of_ofConfig chosen fuzzy
  have noted := HandoverStrategy.register_fuzzy known registered
  exact ⟨part.noted, noted, by rw [run_strategy, noted], takes⟩

/-- In a run of a started engine with a fuzzy algorithm, the desirability of a handover
fails only with an empty output.  So does a link quality that the rule base describes
with two inputs; with another number of inputs it fails on every prediction.  All faults
of inferences that the engine warns of are of these kinds. -/
theorem evaluations_fail_silently [FiniteOrder α] {config : EngineConfig α}
    (started : (start config).result = .ok engine) {inputs : Role → Nat}
    (fuzzy : config.algorithm.linkInputs? = some inputs) (requests : List Request) :
    ∃ part, (engine.run requests).strategy.fuzzy? = some part ∧
      (∀ fault, engine.Warns requests fault → part.evaluator.Fails fault) ∧
      ((∀ role, inputs role = 2) → ∀ fault, part.evaluator.Fails fault → fault.Silent) ∧
      (∀ serving neighbour fault,
        part.evaluator.triggerScore serving neighbour = .error fault → fault.Silent) ∧
      ∀ role samples,
        (∀ fault, part.evaluator.linkQuality role samples = .error fault →
          fault.OfInference (inputs role) 2) ∧
        (inputs role ≠ 2 → (forecast? role samples).isSome = true →
          part.evaluator.linkQuality role samples = .error (.inputCount (inputs role) 2)) := by
  obtain ⟨part, known, still, takes⟩ := takes_of_start started fuzzy requests
  refine ⟨part, still, fun _ warns => warns.fails known, ?_, ?_, ?_⟩
  · intro two fault fails
    refine (fails.silent_or takes).resolve_right ?_
    rintro ⟨role, differ, _⟩
    exact differ (two role)
  · intro serving neighbour fault failed
    exact Evaluator.triggerScore_error takes failed
  · intro role samples
    exact ⟨fun fault failed => Evaluator.linkQuality_error takes failed,
      fun differ predicted => Evaluator.linkQuality_misfit takes differ predicted⟩

/-- A configuration whose link qualities have the named inputs.  Only their least values
are described. -/
def drawn (names : List String) : EngineConfig Float :=
  let input (name : String) : Variable Float (Membership Float) :=
    ⟨name, ⟨0, 1, 2⟩, [⟨"LEAST", .trapezoidal 0 0 0 1⟩]⟩
  let system (names : List String) : Definition Float (Membership Float) :=
    { inputs := names.map input
      output := ⟨qualityName, ⟨0, 1, 2⟩, [⟨"HIGH", .triangular 0 1 1⟩]⟩
      rules := [.ofPairs (names.map fun name => (name, "LEAST")) "HIGH"] }
  let trigger := system [servingQualityName, neighbourQualityName]
  let usual : FuzzyConfig Float (Membership Float) := .usual
  .ofAlgorithm
    (.typeOne { usual with ruleBase := some ⟨system names, system names, trigger⟩ })

theorem linkInputs?_drawn (names : List String) :
    (drawn names).algorithm.linkInputs? = some fun _ => names.length :=
  congrArg some (funext fun role => by cases role <;> exact List.length_map _)

theorem exists_warns_of_any {requests : List Request} {test : FuzzyError α → Bool}
    (passed : ((engine.steps requests).any fun step =>
      step.warnings.any fun warning => warning.fault?.any test) = true) :
    ∃ fault, engine.Warns requests fault ∧ test fault = true := by
  obtain ⟨step, made, passed⟩ := List.any_eq_true.mp passed
  obtain ⟨warning, warned, passed⟩ := List.any_eq_true.mp passed
  obtain ⟨fault, told, passed⟩ := Option.any_eq_true _ _ |>.mp passed
  exact ⟨fault, ⟨step, made, warning, warned, told⟩, passed⟩

theorem evaluations_fail_silently_drawn :
    let config := drawn [rsrqName, changeName]
    let requests : List Request := [.report ⟨1⟩ ⟨1⟩ ⟨⟨100000⟩, 40, 10, []⟩]
    ∃ engine, (start config).result = .ok engine ∧
      config.algorithm.linkInputs? = some (fun _ => 2) ∧
      ∃ fault, engine.Warns requests fault ∧ fault.Silent := by
  intro config requests
  have evaluated : (start config).result.toOption.any (fun engine =>
      (engine.steps requests).any fun step =>
        step.warnings.any fun warning => warning.fault?.any fun _ => true) = true := by
    decide +kernel
  obtain ⟨engine, started, passed⟩ := exists_of_any_toOption evaluated
  obtain ⟨fault, warns, _⟩ := exists_warns_of_any passed
  have two := linkInputs?_drawn [rsrqName, changeName]
  obtain ⟨_, _, fails, silent, _⟩ := evaluations_fail_silently started two requests
  exact ⟨engine, started, two, fault, warns, silent (fun _ => rfl) fault (fails fault warns)⟩

/-- A description with three inputs is accepted, and the first report finds one value
missing. -/
theorem accepted_then_misfit :
    let config := drawn [rsrqName, changeName, "load"]
    ∃ engine, (start config).result = .ok engine ∧
      engine.Warns [.report ⟨1⟩ ⟨1⟩ ⟨⟨100000⟩, 40, 10, []⟩] (.inputCount 3 2) := by
  intro config
  have evaluated : (start config).result.toOption.any (fun engine =>
      (engine.steps [.report ⟨1⟩ ⟨1⟩ ⟨⟨100000⟩, 40, 10, []⟩]).any fun step =>
        step.warnings.any fun warning => warning.fault?.any fun fault =>
          match fault with
          | .inputCount 3 2 => true
          | _ => false) = true := by
    decide +kernel
  obtain ⟨engine, started, passed⟩ := exists_of_any_toOption evaluated
  obtain ⟨fault, warns, same⟩ := exists_warns_of_any passed
  refine ⟨engine, started, ?_⟩
  split at same
  · exact warns
  · cases same

/-- An engine whose link quality of the serving cell does not take two inputs never
starts a handover on a report. -/
theorem report_of_misfit {config : EngineConfig α} (started : (start config).result = .ok engine)
    {inputs : Role → Nat} (fuzzy : config.algorithm.linkInputs? = some inputs)
    (differ : inputs .serving ≠ 2) (requests : List Request) (ue : UeId) (id : MeasId)
    (report : Report) :
    ((engine.run requests).report ue id report).answer = .abstained ∧
      ((engine.run requests).report ue id report).calls = [] := by
  obtain ⟨part, _, still, takes⟩ := takes_of_start started fuzzy requests
  have abstains : ∀ decision,
      ((engine.run requests).strategy.evaluate ue id report (engine.run requests).store).answer =
        .ok decision → decision = .abstain ue := by
    intro decision decided
    rw [HandoverStrategy.evaluate_of_fuzzy still] at decided
    exact FuzzyInference.abstains_of_choice
      (Evaluator.selectTarget_choice_of_misfit takes differ) decided
  obtain ⟨answer, calls, _⟩ := report_of_abstain abstains
  exact ⟨answer, calls⟩

end Handover.Engine
