import Handover.Proofs.Engine.Failure
import Handover.Proofs.Engine.Marks
import Handover.Proofs.Inference.Reach

/-!
# Engines that are switched off by the threshold

If no desirability can exceed the threshold of a fuzzy algorithm, then its engine
abstains on every report.  It asks for no handover except for those that the host
decided on itself and handed over to be dispatched.
-/

namespace Handover

open Fuzzy Inference Strategy Extended

variable {K : Type} [Field K] [LinearOrder K] [IsStrictOrderedRing K] [FloorSemiring K]
  [Exponential K]

namespace Strategy.FuzzyInference

/-- The evaluator never chooses a target. -/
def Silent {α : Type} [Scalar α] (part : FuzzyInference α) : Prop :=
  ∀ state now servingRsrq, (part.evaluator.selectTarget state now servingRsrq).choice = none

theorem silent_of_typeOne {config : FuzzyConfig (Extended K) (Membership (Extended K))}
    {part : FuzzyInference (Extended K)} (built : typeOne config = .ok part)
    (reach : config.OutOfReach BuiltIn.typeOne) : part.Silent := by
  obtain ⟨evaluator, made, built⟩ := exists_of_bind_eq_ok built
  cases built
  obtain ⟨within, threshold⟩ :=
    Evaluator.within_of_assemble InferenceSystem.within_typeOne (liftFault_ok made)
  exact Evaluator.selectTarget_choice_of_outOfReach within (threshold.symm ▸ reach)

theorem silent_of_typeTwo {config : FuzzyConfig (Extended K) (Footprint (Extended K))}
    {part : FuzzyInference (Extended K)} (built : typeTwo config = .ok part)
    (reach : config.OutOfReach BuiltIn.typeTwo) : part.Silent := by
  obtain ⟨evaluator, made, built⟩ := exists_of_bind_eq_ok built
  cases built
  obtain ⟨within, threshold⟩ :=
    Evaluator.within_of_assemble InferenceSystem.within_typeTwo (liftFault_ok made)
  exact Evaluator.selectTarget_choice_of_outOfReach within (threshold.symm ▸ reach)

end Strategy.FuzzyInference

theorem HandoverStrategy.silent_of_ofConfig {algorithm : AlgorithmConfig (Extended K)}
    {strategy : HandoverStrategy (Extended K)} (chosen : ofConfig algorithm = .ok strategy)
    (reach : algorithm.OutOfReach) : ∃ part, strategy.fuzzy? = some part ∧ part.Silent := by
  cases algorithm with
  | noOp | bestNeighbour _ _ | offset _ _ => cases reach
  | typeOne config =>
      obtain ⟨part, built, rfl⟩ := exists_of_map_eq_ok chosen
      exact ⟨part, rfl, FuzzyInference.silent_of_typeOne built reach⟩
  | typeTwo config =>
      obtain ⟨part, built, rfl⟩ := exists_of_map_eq_ok chosen
      exact ⟨part, rfl, FuzzyInference.silent_of_typeTwo built reach⟩

namespace Engine

section Silence

variable {α : Type} [Scalar α] {engine : Engine α} {part : FuzzyInference α}

/-- With an evaluator that never chooses a target, every report is abstained on. -/
theorem evaluate_of_silent (fuzzy : engine.strategy.fuzzy? = some part) (silent : part.Silent)
    (ue : UeId) (id : MeasId) (report : Report) :
    (engine.evaluate ue id report).answer = .abstain ue := by
  have same := HandoverStrategy.evaluate_of_fuzzy fuzzy ue id report engine.store
  rw [evaluate, same]
  cases answered : (part.evaluate ue id report engine.store).answer with
  | ok decision => exact FuzzyInference.abstains_of_choice silent answered
  | error error => rfl

/-- Then the host is asked only for what it decided on itself. -/
theorem eq_offer_of_trigger (fuzzy : engine.strategy.fuzzy? = some part)
    (silent : part.Silent) {request : Request} {ue : UeId} {cell : CellId}
    (called : .trigger ue cell ∈ (engine.handle request).calls) :
    request = .offer ⟨ue, some cell⟩ := by
  rw [handle_calls] at called
  obtain ⟨same, triggered⟩ := Progress.trigger_mem_calls called
  cases request with
  | report other id report =>
      rw [progress, evaluate_of_silent fuzzy silent] at triggered
      cases triggered
  | evaluate other id report => cases triggered
  | offer decision =>
      obtain ⟨other, target⟩ := decision
      cases target with
      | none => cases triggered
      | some chosen =>
          rw [progress, Progress.ofOffer] at triggered
          split at triggered
          · cases triggered
          · cases triggered
            cases same
            rfl
  | acknowledge other outcome | connect other cell time | conclude other outcome time
  | remove other => exact absurd triggered (Progress.ofEnd_ne _ (by simp) (by simp))

theorem mem_of_trigger_mem_calls (fuzzy : engine.strategy.fuzzy? = some part)
    (silent : part.Silent) {requests : List Request} {ue : UeId} {cell : CellId}
    (called : .trigger ue cell ∈ engine.calls requests) :
    .offer ⟨ue, some cell⟩ ∈ requests := by
  induction requests generalizing engine with
  | nil => cases called
  | cons request rest ih =>
      rw [calls_cons] at called
      rcases List.mem_append.mp called with now | later
      · rw [eq_offer_of_trigger fuzzy silent now]
        exact List.mem_cons_self
      · refine List.mem_cons_of_mem _ (ih ?_ later)
        rw [(confined_handle request).strategy, fuzzy]

end Silence

/-- A started engine whose threshold is out of reach abstains on every report of every
run, and the host is asked only for handovers that it decided on itself. -/
theorem abstains_of_outOfReach {config : EngineConfig (Extended K)} {engine : Engine (Extended K)}
    (started : (start config).result = .ok engine) (reach : config.algorithm.OutOfReach)
    (requests : List Request) :
    (∀ ue id report, ((engine.run requests).evaluate ue id report).answer = .abstain ue ∧
      ((engine.run requests).report ue id report).answer = .abstained) ∧
    ∀ ue cell, .trigger ue cell ∈ engine.calls requests → .offer ⟨ue, some cell⟩ ∈ requests := by
  obtain ⟨interval, strategy, _, chosen, registered, same⟩ := start_eq_ok started
  obtain ⟨part, known, silent⟩ := HandoverStrategy.silent_of_ofConfig chosen reach
  have noted : engine.strategy.fuzzy? = some part.noted := by
    rw [same, HandoverStrategy.register_fuzzy known registered]
  have still : part.noted.Silent := silent
  constructor
  · intro ue id report
    have fuzzy : (engine.run requests).strategy.fuzzy? = some part.noted := by
      rw [run_strategy, noted]
    have abstains := evaluate_of_silent fuzzy still ue id report
    refine ⟨abstains, ?_⟩
    rw [Engine.report, abstains, offer_of_none _ rfl]
  · exact fun ue cell called => mem_of_trigger_mem_calls noted still called

omit [IsStrictOrderedRing K] in
/-- The built-in rule bases do not reach a threshold of one. -/
theorem outOfReach_of_one {μ : Type} {config : FuzzyConfig (Extended K) μ}
    {draw : TermSketch (Extended K) → μ} (builtIn : config.ruleBase = none)
    (one : config.abstentionThreshold = 1) : config.OutOfReach (BuiltIn.ruleBase draw) := by
  rw [FuzzyConfig.OutOfReach, builtIn, one]
  exact Extended.le_refl nofun

/-- In exact arithmetic the answers of built systems, and the ends of the intervals of
centroids, lie in the output range.  So a fuzzy algorithm whose threshold is not below
the range of the desirability, such as a built-in one with a threshold of one, never
decides on a handover: its engine abstains on every report, and the host is asked only
for handovers that it decided on itself. -/
theorem scores_within_range :
    (∀ (definition : TypeOneDefinition (Extended K)) (system : TypeOneSystem (Extended K)),
      definition.build = .ok system → ∀ crisp score,
        TypeOne.evaluate system crisp = .ok score → system.output.domain.Contains score) ∧
    (∀ (definition : TypeTwoDefinition (Extended K)) (system : TypeTwoSystem (Extended K)),
      definition.build = .ok system →
        (∀ activation left right, TypeTwo.reduceType system activation = .ok (left, right) →
          system.output.domain.Contains left ∧ left ≤ right ∧
            system.output.domain.Contains right) ∧
        ∀ crisp score,
          TypeTwo.evaluate system crisp = .ok score → system.output.domain.Contains score) ∧
    (∀ (config : EngineConfig (Extended K)) (engine : Engine (Extended K)),
      (start config).result = .ok engine → config.algorithm.OutOfReach → ∀ requests,
        (∀ ue id report, ((engine.run requests).evaluate ue id report).answer = .abstain ue ∧
          ((engine.run requests).report ue id report).answer = .abstained) ∧
        ∀ ue cell,
          .trigger ue cell ∈ engine.calls requests → .offer ⟨ue, some cell⟩ ∈ requests) ∧
    (∀ config : FuzzyConfig (Extended K) (Membership (Extended K)),
      config.ruleBase = none → config.abstentionThreshold = 1 →
        (AlgorithmConfig.typeOne config).OutOfReach) ∧
    ∀ config : FuzzyConfig (Extended K) (Footprint (Extended K)),
      config.ruleBase = none → config.abstentionThreshold = 1 →
        (AlgorithmConfig.typeTwo config).OutOfReach :=
  ⟨fun _ _ built _ _ answered => TypeOne.evaluate_contained built answered,
    fun _ _ built => ⟨fun _ _ _ reduced => TypeTwo.reduceType_contained built reduced,
      fun _ _ answered => TypeTwo.evaluate_contained built answered⟩,
    fun _ _ started reach requests => abstains_of_outOfReach started reach requests,
    fun _ builtIn one => outOfReach_of_one builtIn one,
    fun _ builtIn one => outOfReach_of_one builtIn one⟩

/-- A rule whose terms reach further under the upper bound than under the lower one. -/
def vague : TypeTwoDefinition (Extended ℚ) :=
  let unit : Domain (Extended ℚ) := ⟨0, 1, 3⟩
  let high : Footprint (Extended ℚ) := ⟨.triangular (number (1 / 4)) 1 1, .triangular 0 1 1⟩
  { inputs := [⟨"signal", unit, [⟨"HIGH", high⟩]⟩]
    output := ⟨"trigger", unit, [⟨"YES", high⟩]⟩
    rules := [.ofPairs [("signal", "HIGH")] "YES"] }

/-- The type-1 algorithm with a threshold of one. -/
def switchedOff : FuzzyConfig (Extended ℚ) (Membership (Extended ℚ)) :=
  { FuzzyConfig.usual with abstentionThreshold := 1 }

theorem scores_within_range_switchedOff :
    (∃ system crisp score, rising.build = .ok system ∧
      TypeOne.evaluate system crisp = .ok score ∧ system.output.domain.Contains score) ∧
    (∃ system crisp score, vague.build = .ok system ∧
      TypeTwo.evaluate system crisp = .ok score ∧ system.output.domain.Contains score ∧
      ∃ activation left right, TypeTwo.reduceType system activation = .ok (left, right) ∧
        left < right ∧ system.output.domain.Contains left ∧
        system.output.domain.Contains right) ∧
    ∃ engine, (start (.ofAlgorithm (.typeOne switchedOff))).result = .ok engine ∧
      ∀ cell, .trigger ⟨1⟩ cell ∉ engine.calls
        [.report ⟨1⟩ ⟨2⟩ ⟨⟨1000⟩, 40, 10, [⟨⟨5⟩, some 45, some 30⟩]⟩,
          .report ⟨1⟩ ⟨1⟩ ⟨⟨2000⟩, 40, 8, []⟩] := by
  obtain ⟨ordinary, interval, engines, builtIn, _⟩ := scores_within_range (K := ℚ)
  refine ⟨?_, ?_, ?_⟩
  · have evaluated : rising.build.toOption.any (fun system =>
        (TypeOne.evaluate system [number (1 / 2)]).toOption.any fun _ => true) = true := by
      decide +kernel
    obtain ⟨system, built, evaluated⟩ := exists_of_any_toOption evaluated
    obtain ⟨score, answered, _⟩ := exists_of_any_toOption evaluated
    exact ⟨system, _, score, built, answered, ordinary _ system built _ score answered⟩
  · have evaluated : vague.build.toOption.any (fun system =>
        (TypeTwo.evaluate system [number (1 / 2)]).toOption.any fun _ =>
          (TypeTwo.reduceType system ⟨[1], [1]⟩).toOption.any fun ends =>
            ends.1 < ends.2) = true := by
      decide +kernel
    obtain ⟨system, built, evaluated⟩ := exists_of_any_toOption evaluated
    obtain ⟨score, answered, evaluated⟩ := exists_of_any_toOption evaluated
    obtain ⟨⟨left, right⟩, reduced, apart⟩ := exists_of_any_toOption evaluated
    obtain ⟨ends, scores⟩ := interval _ system built
    obtain ⟨first, _, second⟩ := ends _ left right reduced
    exact ⟨system, _, score, built, answered, scores _ score answered, _, left, right, reduced,
      of_decide_eq_true apart, first, second⟩
  · have evaluated : (start (.ofAlgorithm (.typeOne switchedOff))).result.toOption.any
        (fun _ => true) = true := by
      decide +kernel
    obtain ⟨engine, started, _⟩ := exists_of_any_toOption evaluated
    refine ⟨engine, started, ?_⟩
    intro cell called
    have offered := (engines _ engine started (builtIn switchedOff rfl rfl) _).2 _ cell called
    simp at offered

end Engine

end Handover
