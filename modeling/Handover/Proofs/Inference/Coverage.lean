import Handover.Proofs.Fuzzy.Coverage
import Handover.Proofs.Inference.Failure
import Handover.Proofs.Inference.Selection
import Handover.Proofs.Inference.Sketch
import Handover.Proofs.Trend.Prediction

/-!
# Built-in rule bases cover all inputs

In the built-in rule bases the terms of a variable leave no gap, also with the narrower bells of
their footprints, and every pair of terms has a rule.  So some rule always fires at least at the
degree that a value has at three widths from the mean of a term.  The means of the terms of the
output are sample points, so that the consequent of this rule shows in the output.

An evaluator with a built-in rule base therefore infers a link quality from any samples, and a
score from any two link qualities.
-/

namespace Handover

open Fuzzy Scalar Extended

variable {K : Type} [Field K] [LinearOrder K] [FloorSemiring K] [Exponential K]

namespace Inference

open TermSketch

namespace TermSketch

variable {name : String} {outline : Outline} {mean : Extended K} {sigma spread : K}

theorem least_number : least ⟨name, outline, mean, number sigma, number spread⟩ =
    sigma - spread / 2 := by
  rw [least, two_def, number_div _ two_ne_zero, number_sub, value]

theorem measured_iff {mean : K} :
    Measured ⟨name, outline, number mean, number sigma, number spread⟩ ↔
      0 ≤ spread ∧ 0 < sigma - spread / 2 := by
  constructor
  · intro measured
    exact ⟨measured.nonneg, measured.least_pos.trans_eq least_number⟩
  · rintro ⟨nonneg, positive⟩
    exact ⟨rfl, rfl, rfl, nonneg, positive.trans_eq least_number.symm⟩

end TermSketch

namespace BuiltIn

/-! ## Tables -/

section Tables

theorem check_unitDomain : (unitDomain : Domain (Extended K)).check = .ok () :=
  Domain.check_number zero_lt_one (by decide)

variable [IsStrictOrderedRing K]

theorem check_drawings : ∀ drawing ∈ drawings (α := Extended K), drawing.1.check = .ok () := by
  have rsrq : (rsrqDomain : Domain (Extended K)).check = .ok () := by
    rw [rsrqDomain, ofNat_def]
    exact Domain.check_number (by norm_num) (by decide)
  have change : (changeDomain : Domain (Extended K)).check = .ok () := by
    rw [changeDomain, ofNat_def]
    exact Domain.check_number (by norm_num) (by decide)
  simp [drawings, rsrq, change, check_unitDomain]

/-- The terms of every variable leave no gap. -/
theorem spans_drawings : ∀ drawing ∈ drawings (α := Extended K), Spans drawing.2 := by
  simp only [drawings, servingRsrqTerms, servingChangeTerms, neighbourRsrqTerms,
    neighbourChangeTerms, qualityTerms, triggerTerms, ofDecimal_def, ofNat_def, ofInt,
    Extended.zero_def, Extended.one_def, List.forall_mem_cons, spans_iff, measured_iff,
    List.isChain_cons_cons, Meets, center, least_number, value, ne_eq, reduceCtorEq, not_false_eq_true]
  norm_num

omit [IsStrictOrderedRing K] in
/-- The means of the terms of an output are sample points. -/
theorem mean_mem_samples : ∀ sketch ∈ qualityTerms ++ triggerTerms,
    sketch.mean ∈ (unitDomain : Domain (Extended K)).samples := by
  have lowest := Domain.min_mem_samples (check_unitDomain (K := K))
  have highest := Domain.max_mem_samples (check_unitDomain (K := K))
  have points : (unitDomain : Domain (Extended K)).points.toNat = 101 := rfl
  have middle : (ofDecimal 5 1 : Extended K) ∈ unitDomain.samples := by
    refine List.mem_map.mpr ⟨50, List.mem_range.mpr (by rw [points]; decide), ?_⟩
    rw [Domain.sample, points, if_neg (by decide), Domain.step_number rfl rfl, points, ofNat_def,
      number_mul, ofDecimal_def]
    change number (0 + _) = _
    norm_num
  simp only [qualityTerms, triggerTerms, List.cons_append, List.nil_append, List.forall_mem_cons]
  exact ⟨lowest, middle, highest, lowest, middle, highest, List.forall_mem_nil _⟩

end Tables

theorem qualityRules_complete : ∀ rsrq ∈ ["POOR", "FAIR", "GOOD", "EXCELLENT"],
    ∀ change ∈ ["DEC", "INC"], ∃ rule ∈ qualityRules, ∀ clause ∈ rule.antecedents,
      clause = ⟨rsrqName, rsrq⟩ ∨ clause = ⟨changeName, change⟩ := by
  decide

theorem triggerRules_complete : ∀ serving ∈ ["LOW", "AVERAGE", "HIGH"],
    ∀ neighbour ∈ ["LOW", "AVERAGE", "HIGH"], ∃ rule ∈ triggerRules, ∀ clause ∈ rule.antecedents,
      clause = ⟨servingQualityName, serving⟩ ∨ clause = ⟨neighbourQualityName, neighbour⟩ := by
  decide

/-! ## Descriptions -/

section Descriptions

variable [IsStrictOrderedRing K] {μ : Type} {draw : TermSketch (Extended K) → μ}
  {shape : μ → Membership (Extended K)} (draws : Draws draw shape)

include draws

theorem faintest_le_draw {sketch : TermSketch (Extended K)} (measured : sketch.Measured) {x : K}
    (near : sketch.Near x) : number (faintest K) ≤ (shape (draw sketch)).degree (number x) := by
  obtain ⟨width, wide, drawn⟩ := draws sketch measured
  rw [drawn]
  exact measured.faintest_le_degree wide near

theorem exists_term_of_spans {sketches : List (TermSketch (Extended K))} (spans : Spans sketches)
    (name : String) (domain : Domain (Extended K)) (x : K) :
    ∃ term ∈ (variableOf draw name domain sketches).terms,
      number (faintest K) ≤ (shape term.membership).degree (number x) := by
  obtain ⟨sketch, member, near⟩ := spans.exists_near x
  exact ⟨_, List.mem_map_of_mem member,
    faintest_le_draw draws (spans.measured sketch member) near⟩

theorem exists_sample_of_measured {sketches : List (TermSketch (Extended K))} {name : String}
    {domain : Domain (Extended K)} (measured : ∀ sketch ∈ sketches, sketch.Measured)
    (sampled : ∀ sketch ∈ sketches, sketch.mean ∈ domain.samples) :
    ∀ term ∈ (variableOf draw name domain sketches).terms, ∃ x ∈ domain.samples,
      number (faintest K) ≤ (shape term.membership).degree x := by
  refine List.forall_mem_map.mpr fun sketch member => ⟨_, sampled sketch member, ?_⟩
  have known := measured sketch member
  rw [known.mean]
  exact faintest_le_draw draws known known.near_center

/-- A link quality covers its inputs. -/
theorem covers_quality {rsrqTerms changeTerms : List (TermSketch (Extended K))}
    (rsrq : Spans rsrqTerms) (change : Spans changeTerms)
    (rsrqNames : rsrqTerms.map TermSketch.name = ["POOR", "FAIR", "GOOD", "EXCELLENT"])
    (changeNames : changeTerms.map TermSketch.name = ["DEC", "INC"]) :
    (quality draw rsrqTerms changeTerms).Covers shape (faintest K) where
  inputs := List.forall_mem_cons.mpr ⟨fun x _ => exists_term_of_spans draws rsrq _ _ x,
    List.forall_mem_singleton.mpr fun x _ => exists_term_of_spans draws change _ _ x⟩
  complete := by
    refine Definition.complete_of_pairs rfl ?_
    simp only [variableOf, List.map_map]
    change ∀ one ∈ rsrqTerms.map TermSketch.name, ∀ two ∈ changeTerms.map TermSketch.name, _
    rw [rsrqNames, changeNames]
    exact qualityRules_complete
  output := exists_sample_of_measured draws
    (spans_drawings (unitDomain, qualityTerms) (by simp [drawings])).measured
    fun sketch member => mean_mem_samples sketch (List.mem_append_left _ member)

/-- The desirability of a handover covers its inputs. -/
theorem covers_trigger : (trigger draw).Covers shape (faintest K) where
  inputs := by
    have spans := (spans_drawings (K := K) (unitDomain, qualityTerms) (by simp [drawings]))
    exact List.forall_mem_cons.mpr ⟨fun x _ => exists_term_of_spans draws spans _ _ x,
      List.forall_mem_singleton.mpr fun x _ => exists_term_of_spans draws spans _ _ x⟩
  complete := Definition.complete_of_pairs rfl triggerRules_complete
  output := exists_sample_of_measured draws
    (spans_drawings (unitDomain, triggerTerms) (by simp [drawings])).measured
    fun sketch member => mean_mem_samples sketch (List.mem_append_right _ member)

end Descriptions

/-! ## Construction -/

section Construction

variable [IsStrictOrderedRing K]

theorem typeOne_builds_exact : (typeOne (α := Extended K)).Builds :=
  ruleBase_builds fun drawing member => ⟨check_drawings drawing member, fun sketch known =>
    ((spans_drawings drawing member).measured sketch known).validate_shape _⟩

theorem typeTwo_builds_exact : (typeTwo (α := Extended K)).Builds :=
  ruleBase_builds fun drawing member => ⟨check_drawings drawing member, fun sketch known =>
    ((spans_drawings drawing member).measured sketch known).validate_footprint _ _⟩

end Construction

end BuiltIn

/-! ## Evaluators -/

/-- The system answers whatever the values of its inputs are. -/
def InferenceSystem.Answers {α : Type} [Scalar α] (system : InferenceSystem α) : Prop :=
  ∀ crisp, crisp.length = system.inputNames.length → ∃ score, system.evaluate crisp = .ok score

/-- Any samples have a link quality, and any two link qualities a score. -/
structure Evaluator.Scores (evaluator : Evaluator (Extended K)) : Prop where
  serving : ∀ samples : List K, samples ≠ [] →
    ∃ quality, evaluator.servingQuality (samples.map number) = .ok quality
  neighbour : ∀ samples : List K, samples ≠ [] →
    ∃ quality, evaluator.neighbourQuality (samples.map number) = .ok quality
  trigger : ∀ serving neighbour, ∃ score, evaluator.triggerScore serving neighbour = .ok score

section Answers

variable [IsStrictOrderedRing K]

/-- Samples can be continued. -/
theorem exists_forecast (role : Trend.Role) {samples : List K} (nonempty : samples ≠ []) :
    ∃ predicted change, Trend.forecast? role (samples.map number) =
      some ((predicted, change) : Extended K × Extended K) := by
  obtain ⟨p, _, predicted⟩ := Trend.exists_prediction nonempty
  obtain ⟨last, known⟩ := Option.ne_none_iff_exists'.mp (mt List.getLast?_eq_none_iff.mp nonempty)
  rw [Trend.forecast?, List.getLast?_map, known, Option.map_some, predicted]
  split_ifs
  · exact ⟨_, _, rfl⟩
  · exact ⟨_, _, rfl⟩

theorem exists_quality {system : InferenceSystem (Extended K)} (answers : system.Answers)
    (two : system.inputNames.length = 2) (role : Trend.Role) {samples : List K}
    (nonempty : samples ≠ []) :
    ∃ quality, Evaluator.quality system role (samples.map number) = .ok quality := by
  obtain ⟨predicted, change, made⟩ := exists_forecast role nonempty
  rw [Evaluator.quality, made]
  exact answers _ two.symm

theorem InferenceSystem.answers_typeOne (visible : 1 / 2 ^ 52 < faintest K)
    {definition : TypeOneDefinition (Extended K)} {system : TypeOneSystem (Extended K)}
    (built : definition.build = .ok system) (covers : definition.Covers id (faintest K)) :
    (typeOne system).Answers := by
  intro crisp fits
  rw [inputNames, System.inputNames, List.length_map] at fits
  exact TypeOne.exists_answer built covers visible fits

theorem InferenceSystem.answers_typeTwo (visible : 1 / 2 ^ 52 < faintest K)
    {definition : TypeTwoDefinition (Extended K)} {system : TypeTwoSystem (Extended K)}
    (built : definition.build = .ok system)
    (covers : definition.Covers Footprint.lower (faintest K)) : (typeTwo system).Answers := by
  intro crisp fits
  rw [inputNames, System.inputNames, List.length_map] at fits
  exact TypeTwo.exists_answer built covers visible fits

/-- An evaluator scores if its kind of system answers wherever the inputs are covered. -/
theorem Evaluator.scores_of_assemble {μ δ : Type} [Grading μ (Extended K) δ]
    {kind : System (Extended K) μ → InferenceSystem (Extended K)}
    {draw : TermSketch (Extended K) → μ} {shape : μ → Membership (Extended K)}
    (draws : Draws draw shape)
    (takes : ∀ {definition : Definition (Extended K) μ} {system : System (Extended K) μ},
      definition.build = .ok system → (kind system).Takes definition.inputs.length)
    (answers : ∀ {definition : Definition (Extended K) μ} {system : System (Extended K) μ},
      definition.build = .ok system → definition.Covers shape (faintest K) →
        (kind system).Answers)
    {threshold : Extended K} {window : Nat} {evaluator : Evaluator (Extended K)}
    (built : assemble kind (BuiltIn.ruleBase draw) threshold window = .ok evaluator) :
    evaluator.Scores := by
  obtain ⟨serving, neighbour, trigger, first, second, third, rfl⟩ := assemble_eq_ok_iff.mp built
  have spans := BuiltIn.spans_drawings (K := K)
  simp only [BuiltIn.drawings, List.forall_mem_cons] at spans
  obtain ⟨servingRsrq, servingChange, neighbourRsrq, neighbourChange, _⟩ := spans
  have servingCovers := BuiltIn.covers_quality draws servingRsrq servingChange rfl rfl
  have neighbourCovers := BuiltIn.covers_quality draws neighbourRsrq neighbourChange rfl rfl
  refine ⟨fun samples nonempty => ?_, fun samples nonempty => ?_, fun one other => ?_⟩
  · exact exists_quality (answers first servingCovers) (takes first).arity .serving nonempty
  · exact exists_quality (answers second neighbourCovers) (takes second).arity .neighbour nonempty
  · exact answers third (BuiltIn.covers_trigger draws) _ (List.length_map _)

theorem Evaluator.scores_of_typeOne (visible : 1 / 2 ^ 52 < faintest K) {threshold : Extended K}
    {window : Nat} {evaluator : Evaluator (Extended K)}
    (built : typeOne BuiltIn.typeOne threshold window = .ok evaluator) : evaluator.Scores :=
  scores_of_assemble draws_shape InferenceSystem.takes_typeOne
    (InferenceSystem.answers_typeOne visible) built

theorem Evaluator.scores_of_typeTwo (visible : 1 / 2 ^ 52 < faintest K) {threshold : Extended K}
    {window : Nat} {evaluator : Evaluator (Extended K)}
    (built : typeTwo BuiltIn.typeTwo threshold window = .ok evaluator) : evaluator.Scores :=
  scores_of_assemble draws_footprint InferenceSystem.takes_typeTwo
    (InferenceSystem.answers_typeTwo visible) built

end Answers

/-! ## Evaluations -/

theorem Evaluator.samplesOf_number (history : Trend.History) :
    (samplesOf history : List (Extended K)) =
      (history.samples.map fun sample => (sample.toNat : K)).map number := by
  rw [samplesOf, List.map_map]
  exact List.map_congr_left fun sample _ => ofNat_def sample.toNat

namespace Evaluator.Scores

variable {evaluator : Evaluator (Extended K)} (scores : evaluator.Scores)

include scores

theorem exists_score (serving : Extended K) {record : NeighbourRecord}
    (heard : record.history.samples ≠ []) :
    ∃ score, evaluator.score serving record = .ok score := by
  obtain ⟨neighbour, inferred⟩ := scores.neighbour _ (mt List.map_eq_nil_iff.mp heard)
  obtain ⟨result, answered⟩ := scores.trigger serving neighbour
  exact ⟨result, by rw [score, samplesOf_number, bind_of_ok inferred, answered]⟩

/-- Nothing is left without a score if histories that are not empty show their samples. -/
theorem selectTarget_warnings {state : UeState} (filed : state.Filed) (now : Instant)
    {servingRsrq : Level} (observed : (state.servingHistory.push servingRsrq).samples ≠ [])
    (shown : ∀ record ∈ state.snapshot, record.history.isEmpty = false →
      record.history.samples ≠ []) :
    (evaluator.selectTarget state now servingRsrq).warnings = [] := by
  obtain ⟨serving, inferred⟩ := scores.serving _ (mt List.map_eq_nil_iff.mp observed)
  rw [← samplesOf_number] at inferred
  rw [evaluator.selectTarget_eq filed inferred]
  simp only [candidates, List.filterMap_eq_nil_iff, List.forall_mem_map, List.mem_filter]
  rintro record ⟨known, _⟩
  rw [warning?, scored?]
  split_ifs with usable
  · obtain ⟨score, answered⟩ := scores.exists_score serving (shown record known usable.2)
    rw [answered]
  · rfl

end Evaluator.Scores

/-- Three widths from the mean of a bell, a real degree is far from nothing. -/
theorem faintest_real : 1 / 2 ^ 52 < faintest ℝ := by
  have power : faintest ℝ = Real.exp (-(9 / 16)) ^ 8 := by
    rw [← Real.exp_nat_mul]
    norm_num [faintest, Exponential.exponential]
  have base : (7 / 16 : ℝ) ≤ Real.exp (-(9 / 16)) := by
    have tangent := Real.add_one_le_exp (-(9 / 16))
    linarith
  calc (1 / 2 ^ 52 : ℝ) < (7 / 16) ^ 8 := by norm_num
    _ ≤ Real.exp (-(9 / 16)) ^ 8 := pow_le_pow_left₀ (by norm_num) base 8
    _ = faintest ℝ := power.symm

end Inference

end Handover
