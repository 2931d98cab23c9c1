import Handover.Proofs.Engine.Events
import Handover.Proofs.Inference.Assembly
import Handover.Proofs.Inference.BuiltIn
import Handover.Proofs.Strategy.Rejection

/-!
# Starting an engine

An engine starts exactly if its configuration passes the checks and its own rule
base, if it has one, can be built.  The host hears either of nothing or of all
events.
-/

namespace Handover

open Inference

section Building

variable {α : Type} [Scalar α]

theorem Inference.Evaluator.exists_assemble_iff {μ δ : Type} [Fuzzy.Grading μ α δ]
    {kind : Fuzzy.System α μ → InferenceSystem α} {rules : RuleBase α μ} {threshold : α}
    {window : Nat} :
    (∃ evaluator, assemble kind rules threshold window = .ok evaluator) ↔ rules.Builds := by
  simp only [assemble_eq_ok_iff]
  constructor
  · rintro ⟨_, serving, neighbour, trigger, first, second, third, _⟩
    exact ⟨⟨serving, first⟩, ⟨neighbour, second⟩, trigger, third⟩
  · rintro ⟨⟨serving, first⟩, ⟨neighbour, second⟩, trigger, third⟩
    exact ⟨_, serving, neighbour, trigger, first, second, third, rfl⟩

/-- The rule base of the configuration, if it has its own, can be built. -/
def FuzzyConfig.RulesBuild {μ δ : Type} [Fuzzy.Grading μ α δ] (config : FuzzyConfig α μ) : Prop :=
  ∀ rules, config.ruleBase = some rules → rules.Builds

theorem FuzzyConfig.builds_iff {μ δ : Type} [Fuzzy.Grading μ α δ] (config : FuzzyConfig α μ)
    {usual : RuleBase α μ} (builds : usual.Builds) :
    (config.ruleBase.getD usual).Builds ↔ config.RulesBuild := by
  rw [RulesBuild]
  cases config.ruleBase with
  | none => exact iff_of_true builds nofun
  | some rules => simp

/-- The rule base of a fuzzy algorithm that has its own can be built. -/
def AlgorithmConfig.RulesBuild : AlgorithmConfig α → Prop
  | typeOne config => config.RulesBuild
  | typeTwo config => config.RulesBuild
  | _ => True

open Strategy

theorem exists_map_iff {ρ τ ε : Type} {first : Except ε ρ} {change : ρ → τ} :
    (∃ result, first.map change = .ok result) ↔ ∃ value, first = .ok value := by
  constructor
  · rintro ⟨_, built⟩
    obtain ⟨value, same, _⟩ := exists_of_map_eq_ok built
    exact ⟨value, same⟩
  · rintro ⟨value, rfl⟩
    exact ⟨change value, rfl⟩

omit [Scalar α] in
theorem exists_lift_bind_iff {ρ τ : Type} {first : Except (Fuzzy.FuzzyError α) ρ}
    {next : ρ → τ} :
    (∃ result, (do let value ← FuzzyInference.liftFault first; .ok (next value)) =
      (.ok result : Except (ConfigError α) τ)) ↔ ∃ value, first = .ok value := by
  constructor
  · rintro ⟨_, built⟩
    obtain ⟨value, same, _⟩ := exists_of_bind_eq_ok built
    cases first with
    | error _ => cases same
    | ok value => exact ⟨value, rfl⟩
  · rintro ⟨value, rfl⟩
    exact ⟨next value, rfl⟩

/-- A strategy can be built from checked parameters unless its rule base cannot. -/
theorem HandoverStrategy.ofConfig_ok_iff (builtInOne : (BuiltIn.typeOne (α := α)).Builds)
    (builtInTwo : (BuiltIn.typeTwo (α := α)).Builds) {algorithm : AlgorithmConfig α}
    (checked : algorithm.validate = .ok ()) :
    (∃ strategy, ofConfig algorithm = .ok strategy) ↔ algorithm.RulesBuild := by
  cases algorithm with
  | noOp => exact iff_of_true ⟨_, rfl⟩ trivial
  | offset _ _ => exact iff_of_true ⟨_, rfl⟩ trivial
  | bestNeighbour hysteresis timeToTrigger =>
      obtain ⟨margin, usable, checked⟩ := exists_of_bind_eq_ok checked
      obtain ⟨time, standard, _⟩ := exists_of_bind_eq_ok checked
      refine iff_of_true (exists_map_iff.mpr ⟨⟨margin, time, none⟩, ?_⟩) trivial
      rw [BestNeighbour.ofParameters, bind_of_ok usable, bind_of_ok standard]
  | typeOne config =>
      rw [ofConfig, exists_map_iff, FuzzyInference.typeOne, exists_lift_bind_iff,
        Evaluator.typeOne_eq_assemble, Evaluator.exists_assemble_iff, config.builds_iff builtInOne]
      rfl
  | typeTwo config =>
      rw [ofConfig, exists_map_iff, FuzzyInference.typeTwo, exists_lift_bind_iff,
        Evaluator.typeTwo_eq_assemble, Evaluator.exists_assemble_iff, config.builds_iff builtInTwo]
      rfl

end Building

namespace Engine

variable {α : Type} [Scalar α]

/-- An engine comes out of the checks and the construction of rule bases, if the
built-in ones can be built. -/
theorem exists_start_iff (builtInOne : (BuiltIn.typeOne (α := α)).Builds)
    (builtInTwo : (BuiltIn.typeTwo (α := α)).Builds) (config : EngineConfig α) :
    (∃ engine, (start config).result = .ok engine) ↔
      config.validate = .ok () ∧ config.algorithm.RulesBuild := by
  simp only [start_ok_iff]
  constructor
  · rintro ⟨_, valid, _, strategy, _, chosen, _⟩
    obtain ⟨_, _, checked⟩ := exists_of_bind_eq_ok valid
    exact ⟨valid,
      (HandoverStrategy.ofConfig_ok_iff builtInOne builtInTwo checked).mp ⟨strategy, chosen⟩⟩
  · rintro ⟨valid, builds⟩
    obtain ⟨interval, standard, checked⟩ := exists_of_bind_eq_ok valid
    obtain ⟨strategy, chosen⟩ :=
      (HandoverStrategy.ofConfig_ok_iff builtInOne builtInTwo checked).mpr builds
    exact ⟨_, valid, interval, strategy, standard, chosen, rfl⟩

theorem calls_of_error {config : EngineConfig α} {error : ConfigError α}
    (failed : (start config).result = .error error) : (start config).calls = [] := by
  rw [start_result] at failed
  rw [start, failed]

theorem calls_of_ok {config : EngineConfig α} {engine : Engine α}
    (started : (start config).result = .ok engine) :
    (start config).calls = engine.subscriptions := by
  rw [start_result] at started
  rw [start, started]

omit [Scalar α] in
theorem eventIds_noted (strategy : HandoverStrategy α) (interval : ReportInterval) :
    strategy.noted.eventIds = (strategy.events interval).events.map fun entry => some entry.1 := by
  cases strategy <;> rfl

theorem unknownEvent_iff (strategy : HandoverStrategy α) (interval : ReportInterval) {ue : UeId}
    {id : MeasId} {report : Report} {store : Store} :
    (strategy.noted.evaluate ue id report store).answer = .error (.unknownEvent id) ↔
      (strategy.events interval).events ≠ [] ∧
        id ∉ (strategy.events interval).events.map Prod.fst := by
  have some : (strategy.events interval).events ≠ [] ↔ strategy.wanted ≠ [] := by
    simp [HandoverStrategy.events, Configurator.ofEvents]
  rw [HandoverStrategy.evaluate_error_iff interval, some]
  simp [Configurator.Registers]

/-- The configured events are those of a started engine.  They are valid, the host hears
of them in order, and the engine knows exactly their identities. -/
theorem start_subscribes {config : EngineConfig α} {engine : Engine α}
    (started : (start config).result = .ok engine) :
    ∃ interval events, config.reportInterval = .ok interval ∧
      config.algorithm.wanted = .ok events ∧
      let registered := (Configurator.ofEvents (events.map (·.every interval))).events
      (start config).calls = registered.map (fun entry => .subscribe entry.1 entry.2) ∧
        (∀ event ∈ events, (event.every interval).validate (α := α) = .ok ()) ∧
        engine.strategy.eventIds = registered.map (fun entry => some entry.1) ∧
        ∀ ue id report store,
          (engine.strategy.evaluate ue id report store).answer = .error (.unknownEvent id) ↔
            registered ≠ [] ∧ id ∉ registered.map Prod.fst := by
  obtain ⟨valid, interval, strategy, standard, chosen, rfl⟩ := start_ok_iff.mp started
  obtain ⟨_, _, checked⟩ := exists_of_bind_eq_ok valid
  have asked := AlgorithmConfig.wanted_of_ofConfig chosen
  exact ⟨interval, strategy.wanted, standard, asked, calls_of_ok started,
    AlgorithmConfig.valid_of_wanted checked asked interval, eventIds_noted strategy interval,
    fun ue id report store => unknownEvent_iff strategy interval⟩

/-- An engine on doubles starts exactly if its configuration passes the checks and its
own rule base can be built.  If it does not start, then the host hears of nothing.  If
it does, then the host hears of the configured events, which are valid and which the
engine knows, under the identities from one. -/
theorem starts_whole_or_not_at_all {exponential : Float → Float} (steady : Steady exponential)
    (config : EngineConfig (Double exponential)) :
    ((∃ engine, (start config).result = .ok engine) ↔
        config.validate = .ok () ∧ config.algorithm.RulesBuild) ∧
      (∀ error, (start config).result = .error error → (start config).calls = []) ∧
      ∀ engine, (start config).result = .ok engine →
        ∃ interval events, config.reportInterval = .ok interval ∧
          config.algorithm.wanted = .ok events ∧
          let registered := (Configurator.ofEvents (events.map (·.every interval))).events
          (start config).calls = registered.map (fun entry => .subscribe entry.1 entry.2) ∧
            (∀ event ∈ events,
              (event.every interval).validate (α := Double exponential) = .ok ()) ∧
            engine.strategy.eventIds = registered.map (fun entry => some entry.1) ∧
            ∀ ue id report store,
              (engine.strategy.evaluate ue id report store).answer = .error (.unknownEvent id) ↔
                registered ≠ [] ∧ id ∉ registered.map Prod.fst :=
  ⟨exists_start_iff (BuiltIn.typeOne_builds exponential) (BuiltIn.typeTwo_builds steady) config,
    fun _ failed => calls_of_error failed, fun _ started => start_subscribes started⟩

/-- Doubles with an exponential that is right at zero only.  Shapes without bells never
ask for it. -/
abbrev Flat : Type :=
  Double fun _ => 1

theorem steady_one : Steady fun _ => 1 := by
  have level : ¬Scalar.clampUnit ((1 : Float) * 1) + Fuzzy.Footprint.tolerance <
      Scalar.clampUnit (1 * 1) := by decide +kernel
  exact fun _ _ _ => level

/-- A configuration with a rule base of its own, which draws no bells. -/
def unbelled (rules : List Fuzzy.Rule) : EngineConfig Flat :=
  let input (name : String) : Fuzzy.Variable Flat (Fuzzy.Footprint Flat) :=
    ⟨name, ⟨0, 1, 2⟩, [⟨"ANY", ⟨.trapezoidal 0 0 1 1, .trapezoidal 0 0 1 1⟩⟩]⟩
  let system : Fuzzy.Definition Flat (Fuzzy.Footprint Flat) :=
    { inputs := [input rsrqName, input changeName]
      output := ⟨qualityName, ⟨0, 1, 2⟩, [⟨"YES", ⟨.triangular 0 1 1, .triangular 0 1 1⟩⟩]⟩
      rules := rules }
  let usual : FuzzyConfig Flat (Fuzzy.Footprint Flat) := .usual
  .ofAlgorithm (.typeTwo { usual with ruleBase := some ⟨system, system, system⟩ })

theorem starts_whole_or_not_at_all_unbelled :
    let config := unbelled [.ofPairs [(rsrqName, "ANY")] "YES"]
    (∃ engine, (start config).result = .ok engine ∧
        engine.strategy.eventIds = [some ⟨1⟩, some ⟨2⟩] ∧
        (start config).calls = [.subscribe ⟨1⟩ (.servingBelow 34),
          .subscribe ⟨2⟩ (.neighbourAbove 0)]) ∧
      (∃ error, (start (unbelled [])).result = .error error) ∧ (start (unbelled [])).calls = [] := by
  intro config
  have whole := starts_whole_or_not_at_all steady_one
  constructor
  · have evaluated : (start config).result.toOption.any (fun _ => true) = true := by
      decide +kernel
    obtain ⟨engine, started, _⟩ := exists_of_any_toOption evaluated
    obtain ⟨interval, events, standard, asked, calls, _, ids, _⟩ :=
      (whole config).2.2 engine started
    have shortest : config.reportInterval = .ok .shortest := rfl
    cases asked
    cases standard.symm.trans shortest
    exact ⟨engine, started, ids, calls⟩
  · have evaluated : (start (unbelled [])).result.toOption.isNone = true := by decide +kernel
    cases failed : (start (unbelled [])).result with
    | ok _ =>
        rw [failed] at evaluated
        cases evaluated
    | error error => exact ⟨⟨error, rfl⟩, (whole (unbelled [])).2.1 error failed⟩

end Engine

end Handover
