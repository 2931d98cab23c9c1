import Handover.Proofs.Engine.Failure
import Handover.Proofs.Engine.Log
import Handover.Proofs.Engine.Startup
import Handover.Proofs.Inference.Coverage

/-!
# Engines with a built-in rule base

A configuration that passes its checks has room for a sample in every history.  So an evaluation
always has a sample of the serving cell, and it leaves out neighbours without samples.  With a
built-in rule base it then infers the link quality of the serving cell and scores every neighbour
that it looks at, and no run of an engine warns that one of these was not possible.
-/

namespace Handover

open Fuzzy Inference Strategy Extended

section Configurations

variable {α : Type} [Scalar α]

/-- The algorithm is a fuzzy one with the built-in rule base. -/
def AlgorithmConfig.UsesBuiltIn : AlgorithmConfig α → Prop
  | typeOne config => config.ruleBase.getD BuiltIn.typeOne = BuiltIn.typeOne
  | typeTwo config => config.ruleBase.getD BuiltIn.typeTwo = BuiltIn.typeTwo
  | _ => False

/-- A checked configuration keeps at least one sample. -/
theorem FuzzyConfig.predictorWindow_pos {μ : Type} {config : FuzzyConfig α μ}
    (checked : config.validate = .ok ()) : 0 < config.predictorWindow.toNat := by
  rw [validate] at checked
  split_ifs at checked with _ _ _ _ empty
  exact Nat.pos_of_ne_zero fun none => empty (UInt64.toNat_inj.mp none)

theorem AlgorithmConfig.window_pos {algorithm : AlgorithmConfig α}
    (checked : algorithm.validate = .ok ()) : 0 < algorithm.window := by
  cases algorithm with
  | noOp | bestNeighbour _ _ | offset _ _ => exact Nat.succ_pos 5
  | typeOne config => exact FuzzyConfig.predictorWindow_pos checked
  | typeTwo config => exact FuzzyConfig.predictorWindow_pos checked

end Configurations

/-! ## Strategies -/

section Strategies

variable {K : Type} [Field K] [LinearOrder K] [IsStrictOrderedRing K] [FloorSemiring K]
  [Exponential K]

theorem HandoverStrategy.scores_of_ofConfig (visible : 1 / 2 ^ 52 < faintest K)
    {algorithm : AlgorithmConfig (Extended K)} {strategy : HandoverStrategy (Extended K)}
    (chosen : ofConfig algorithm = .ok strategy) (builtIn : algorithm.UsesBuiltIn) :
    ∃ part, strategy.fuzzy? = some part ∧ part.evaluator.Scores := by
  cases algorithm with
  | noOp | bestNeighbour _ _ | offset _ _ => cases builtIn
  | typeOne config =>
      obtain ⟨part, built, rfl⟩ := exists_of_map_eq_ok chosen
      obtain ⟨evaluator, made, built⟩ := exists_of_bind_eq_ok built
      cases built
      rw [builtIn] at made
      exact ⟨_, rfl, Evaluator.scores_of_typeOne visible (FuzzyInference.liftFault_ok made)⟩
  | typeTwo config =>
      obtain ⟨part, built, rfl⟩ := exists_of_map_eq_ok chosen
      obtain ⟨evaluator, made, built⟩ := exists_of_bind_eq_ok built
      cases built
      rw [builtIn] at made
      exact ⟨_, rfl, Evaluator.scores_of_typeTwo visible (FuzzyInference.liftFault_ok made)⟩

end Strategies

namespace UeState.Reflects

variable {K : Type} [Field K] [LinearOrder K] [FloorSemiring K] [Exponential K]

/-- In a state that its log tells of, everything that an evaluation looks at is scored. -/
theorem selectTarget_warnings {state : UeState} {window : Nat} {log : List Observation}
    (reflects : state.Reflects window log) (room : 0 < window)
    {evaluator : Evaluator (Extended K)} (scores : evaluator.Scores) (now : Instant)
    (servingRsrq : Level) : (evaluator.selectTarget state now servingRsrq).warnings = [] := by
  refine scores.selectTarget_warnings reflects.filed now
    (reflects.servingHistory.samples_push_ne_nil room servingRsrq) fun record listed heard => ?_
  obtain ⟨cell, known⟩ := Table.mem_values_iff.mp listed
  rw [(reflects.histories cell record known).isEmpty_eq] at heard
  exact List.isEmpty_eq_false_iff.mp heard

end UeState.Reflects

namespace Engine

section Runs

variable {K : Type} [Field K] [LinearOrder K] [IsStrictOrderedRing K] [FloorSemiring K]
  [Exponential K] {config : EngineConfig (Extended K)} {engine : Engine (Extended K)}

/-- No step of a run warns of a fault of an inference. -/
theorem fault?_of_mem_steps (visible : 1 / 2 ^ 52 < faintest K)
    (started : (start config).result = .ok engine) (builtIn : config.algorithm.UsesBuiltIn)
    {requests : List Request} {step : Step (Extended K) Answer}
    (made : step ∈ engine.steps requests) : ∀ warning ∈ step.warnings, warning.fault? = none := by
  intro warning warned
  by_contra faulty
  obtain ⟨fault, told⟩ := Option.ne_none_iff_exists'.mp faulty
  obtain ⟨interval, strategy, valid, chosen, registered, same⟩ := start_eq_ok started
  obtain ⟨part, known, scores⟩ := HandoverStrategy.scores_of_ofConfig visible chosen builtIn
  obtain ⟨earlier, request, _, rfl⟩ := exists_of_mem_steps made
  have fuzzy : (engine.run earlier).strategy.fuzzy? = some part.noted := by
    rw [run_strategy, same, HandoverStrategy.register_fuzzy known registered]
  obtain ⟨ue, id, report, evaluated⟩ := evaluated_of_handle warned told
  rw [HandoverStrategy.evaluate_of_fuzzy fuzzy] at evaluated
  have selected := FuzzyInference.selected_of_warning evaluated told
  obtain ⟨_, _, checked⟩ := exists_of_bind_eq_ok valid
  have room := AlgorithmConfig.window_pos checked
  rw [← historyLength_of_start started] at room
  have noted : part.noted.evaluator.Scores := scores
  rw [((fresh_of_start started).reflects earlier ue).selectTarget_warnings room noted] at selected
  cases selected

end Runs

/-- The built-in rule bases cover all inputs.  With the exponential of the reals, an evaluator of
either kind infers a link quality from any samples, and a score from any two link qualities.  So
no run of an engine with a built-in rule base warns that the link quality of a serving cell is
unavailable or that a neighbour was not scored. -/
theorem built_in_rules_cover :
    (∀ (threshold : Extended ℝ) (window : Nat),
      (∃ evaluator, Evaluator.typeOne BuiltIn.typeOne threshold window = .ok evaluator ∧
        evaluator.Scores) ∧
      ∃ evaluator, Evaluator.typeTwo BuiltIn.typeTwo threshold window = .ok evaluator ∧
        evaluator.Scores) ∧
    ∀ (config : EngineConfig (Extended ℝ)) (engine : Engine (Extended ℝ)),
      (start config).result = .ok engine → config.algorithm.UsesBuiltIn →
        ∀ requests, ∀ step ∈ engine.steps requests, ∀ warning ∈ step.warnings,
          (∀ ue fault, warning ≠ .servingUnavailable ue fault) ∧
            ∀ ue cell fault, warning ≠ .notScored ue cell fault := by
  refine ⟨fun threshold window => ⟨?_, ?_⟩, fun config engine started builtIn requests step made
    warning warned => ?_⟩
  · obtain ⟨evaluator, built⟩ :=
      Evaluator.exists_assemble_iff.mpr (BuiltIn.typeOne_builds_exact (K := ℝ))
    exact ⟨evaluator, built, Evaluator.scores_of_typeOne faintest_real built⟩
  · obtain ⟨evaluator, built⟩ :=
      Evaluator.exists_assemble_iff.mpr (BuiltIn.typeTwo_builds_exact (K := ℝ))
    exact ⟨evaluator, built, Evaluator.scores_of_typeTwo faintest_real built⟩
  · have faultless := fault?_of_mem_steps faintest_real started builtIn made warning warned
    constructor
    · rintro ue fault rfl
      cases faultless
    · rintro ue cell fault rfl
      cases faultless

theorem built_in_rules_cover_usual :
    let config : EngineConfig (Extended ℝ) := .ofAlgorithm (.typeTwo .usual)
    let requests : List Request :=
      [.report ⟨1⟩ ⟨2⟩ ⟨⟨1000⟩, 40, 10, [⟨⟨5⟩, some 45, some 30⟩]⟩,
        .report ⟨1⟩ ⟨1⟩ ⟨⟨2000⟩, 40, 8, []⟩]
    ∃ engine, (start config).result = .ok engine ∧ config.algorithm.UsesBuiltIn ∧
      ∀ step ∈ engine.steps requests, ∀ warning ∈ step.warnings,
        (∀ ue fault, warning ≠ .servingUnavailable ue fault) ∧
          ∀ ue cell fault, warning ≠ .notScored ue cell fault := by
  intro config requests
  have threshold : (0 : Extended ℝ) ≤ Scalar.ofDecimal 75 2 ∧
      Scalar.ofDecimal 75 2 ≤ (1 : Extended ℝ) := by
    rw [ofDecimal_def, zero_def, one_def, number_le, number_le]
    norm_num
  have checked : config.validate = .ok () := if_neg (not_not.mpr threshold)
  have builds : config.algorithm.RulesBuild := fun rules own =>
    absurd own (Option.some_ne_none rules).symm
  obtain ⟨engine, started⟩ := (exists_start_iff BuiltIn.typeOne_builds_exact
    BuiltIn.typeTwo_builds_exact config).mpr ⟨checked, builds⟩
  exact ⟨engine, started, rfl, built_in_rules_cover.2 config engine started rfl requests⟩

end Engine

end Handover
