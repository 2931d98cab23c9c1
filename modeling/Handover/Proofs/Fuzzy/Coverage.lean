import Handover.Proofs.Fuzzy.Activation
import Handover.Proofs.Fuzzy.Area

/-!
# Descriptions that cover their inputs

A description covers its inputs at a level if every value of an input is in some term of its
variable to that level, if every combination of such terms has a rule, and if every term of the
output is that high at some sample point.  Then some rule always fires at the level, and its
consequent is as high in the joined output.  If the level is more than what counts as no weight,
then the system answers whatever the values of its inputs are.

For a type-2 system it is enough to cover the inputs with the lower bounds of the footprints:
with lower weights that count, no search for an end of the interval starves.
-/

namespace Handover.Fuzzy

open Scalar Extended

/-! ## Rules for every combination -/

/-- Whichever term is picked for each input, some rule asks for nothing else. -/
def Definition.Complete {α μ : Type} (definition : Definition α μ) : Prop :=
  ∀ pick : String → String,
    (∀ input ∈ definition.inputs, ∃ term ∈ input.terms, term.name = pick input.name) →
      ∃ rule ∈ definition.rules, ∀ clause ∈ rule.antecedents,
        clause.term = pick clause.variableName

/-- Rules for two inputs are complete if every pair of terms has one. -/
theorem Definition.complete_of_pairs {α μ : Type} {definition : Definition α μ}
    {first second : Variable α μ} (inputs : definition.inputs = [first, second])
    (pairs : ∀ one ∈ first.terms.map Term.name, ∀ two ∈ second.terms.map Term.name,
      ∃ rule ∈ definition.rules, ∀ clause ∈ rule.antecedents,
        clause = ⟨first.name, one⟩ ∨ clause = ⟨second.name, two⟩) :
    definition.Complete := by
  intro pick picked
  rw [inputs, List.forall_mem_cons, List.forall_mem_singleton] at picked
  obtain ⟨one, two⟩ := picked
  obtain ⟨rule, member, asks⟩ := pairs _ (List.mem_map.mpr one) _ (List.mem_map.mpr two)
  refine ⟨rule, member, fun clause stated => ?_⟩
  rcases asks clause stated with rfl | rfl <;> rfl

section Exact

variable {K : Type} [Field K] [LinearOrder K] [FloorSemiring K] [Exponential K]

/-- All values of the inputs are in some terms to a level, every combination of terms has a
rule, and every term of the output reaches the level. -/
structure Definition.Covers {μ : Type} (definition : Definition (Extended K) μ)
    (shape : μ → Membership (Extended K)) (level : K) : Prop where
  inputs : ∀ input ∈ definition.inputs, ∀ x : K, input.domain.Contains (number x) →
    ∃ term ∈ input.terms, number level ≤ (shape term.membership).degree (number x)
  complete : definition.Complete
  output : ∀ term ∈ definition.output.terms, ∃ x ∈ definition.output.domain.samples,
    number level ≤ (shape term.membership).degree x

/-- Every value is moved to a number of the range. -/
theorem Domain.exists_clamp?_contained {domain : Domain (Extended K)}
    (checked : domain.check = .ok ()) (value : Extended K) :
    ∃ x, domain.clamp? value = some (number x) ∧ domain.Contains (number x) := by
  obtain ⟨low, high, lowest, highest, ordered, _⟩ := numbers_of_check checked
  simp only [Contains, clamp?, lowest, highest, number_le, ordered.le, if_true]
  split_ifs with missing below above
  · exact ⟨low, rfl, le_rfl, ordered.le⟩
  · exact ⟨low, rfl, le_rfl, ordered.le⟩
  · exact ⟨high, rfl, ordered.le, le_rfl⟩
  · cases value with
    | number x =>
        rw [number_lt, not_lt] at below above
        exact ⟨x, rfl, below, above⟩
    | minusInfinity => exact absurd rfl below
    | plusInfinity => exact absurd rfl above
    | notNumber => exact absurd rfl missing

variable [IsStrictOrderedRing K]

section Activity

variable {μ δ : Type} [Grading μ (Extended K) δ] {definition : Definition (Extended K) μ}
  {system : System (Extended K) μ} {crisp : List (Extended K)} {bound : δ → Extended K}
  {shape : μ → Membership (Extended K)} {level : K}

/-- The term that is picked for each input has its value to the level. -/
def Picks (pairs : List (Variable (Extended K) μ × Extended K))
    (shape : μ → Membership (Extended K)) (level : K) (pick : String → String) : Prop :=
  ∀ pair ∈ pairs, ∃ x, pair.1.domain.clamp? pair.2 = some (number x) ∧
    ∃ term ∈ pair.1.terms, term.name = pick pair.1.name ∧
      number level ≤ (shape term.membership).degree (number x)

omit [IsStrictOrderedRing K] in
/-- A clause that asks for what is picked is satisfied to the level. -/
theorem Picks.le_grade {pairs : List (Variable (Extended K) μ × Extended K)}
    {pick : String → String} (picks : Picks pairs shape level pick) (bounds : Bounds bound shape)
    (valid : ∀ pair ∈ pairs, pair.1.Valid) {clause : Clause}
    (asks : clause.term = pick clause.variableName) {grade : Extended K}
    (graded : gradeUnder? bound pairs clause = some grade) : number level ≤ grade := by
  obtain ⟨degree, known, rfl⟩ := Option.map_eq_some_iff.mp graded
  obtain ⟨pair, found, known⟩ := Option.bind_eq_some_iff.mp known
  obtain ⟨term, named, known⟩ := Option.bind_eq_some_iff.mp known
  have given := List.mem_of_find?_eq_some found
  have same := List.find?_some found
  simp only [beq_iff_eq] at same
  obtain ⟨x, clamped, picked, listed, called, high⟩ := picks pair given
  -- Of each name there is one term.
  have once := unique_iff_nodup.mp (valid pair given).unique
  obtain ⟨member, title⟩ := (find?_eq_some_iff_of_nodup once).mp named
  obtain rfl := List.inj_on_of_nodup_map once member listed
    (title.trans (asks.trans ((congrArg pick same).symm.trans called.symm)))
  rw [clamped, Option.map_some, Option.some.injEq] at known
  rw [← known, bounds.degree]
  exact high

namespace Definition.Covers

variable (covers : definition.Covers shape level) (builds : definition.Builds system)
  (fits : crisp.length = system.inputs.length)

include covers builds fits

omit [IsStrictOrderedRing K] in
/-- A term can be picked for each input. -/
theorem exists_pick : ∃ pick, Picks (system.inputs.zip crisp) shape level pick := by
  have unique : ((system.inputs.zip crisp).map fun pair => pair.1.name).Nodup := by
    rw [map_name_zip fits, builds.inputs]
    exact unique_iff_nodup.mp builds.unique
  have high (name : String) : ∃ picked, ∀ pair ∈ system.inputs.zip crisp, pair.1.name = name →
      ∃ x, pair.1.domain.clamp? pair.2 = some (number x) ∧
        ∃ term ∈ pair.1.terms, term.name = picked ∧
          number level ≤ (shape term.membership).degree (number x) := by
    by_cases known : ∃ pair ∈ system.inputs.zip crisp, pair.1.name = name
    · obtain ⟨pair, given, rfl⟩ := known
      have input : pair.1 ∈ definition.inputs := builds.inputs ▸ (List.of_mem_zip given).1
      obtain ⟨x, clamped, contained⟩ :=
        Domain.exists_clamp?_contained (builds.validInputs _ input).domain pair.2
      obtain ⟨term, member, above⟩ := covers.inputs _ input x contained
      refine ⟨term.name, fun other again same => ?_⟩
      obtain rfl := List.inj_on_of_nodup_map unique again given same
      exact ⟨x, clamped, term, member, rfl, above⟩
    · exact ⟨name, fun pair given same => absurd ⟨pair, given, same⟩ known⟩
  choose pick picked using high
  exact ⟨pick, fun pair given => picked _ pair given rfl⟩

omit [IsStrictOrderedRing K] in
/-- Some rule has no clause below the level. -/
theorem exists_rule (bounds : Bounds bound shape) :
    ∃ rule ∈ system.rules, ∀ clause ∈ rule.antecedents, ∀ grade,
      gradeUnder? bound (system.inputs.zip crisp) clause = some grade → number level ≤ grade := by
  obtain ⟨pick, picks⟩ := covers.exists_pick builds fits
  have valid : ∀ pair ∈ system.inputs.zip crisp, pair.1.Valid := fun pair given =>
    builds.validInputs _ (builds.inputs ▸ (List.of_mem_zip given).1)
  have named : ∀ input ∈ definition.inputs, ∃ term ∈ input.terms, term.name = pick input.name := by
    rw [← builds.inputs, ← List.map_fst_zip fits.ge, List.forall_mem_map]
    intro pair given
    obtain ⟨_, _, term, member, same, _⟩ := picks pair given
    exact ⟨term, member, same⟩
  obtain ⟨rule, member, asks⟩ := covers.complete pick named
  exact ⟨rule, builds.rules ▸ member, fun clause stated _ graded =>
    picks.le_grade bounds valid (asks clause stated) graded⟩

/-- Some term of the output is as strong as the level. -/
theorem exists_active (bounds : Bounds bound shape) :
    ∃ term ∈ system.output.terms, number level ≤
      strengthOf (gradeUnder bound (system.inputs.zip crisp)) system.rules term.name := by
  obtain ⟨rule, member, high⟩ := covers.exists_rule builds fits bounds
  have resolves := (exists_indexRules_iff 0).mp ⟨_, builds.indexed⟩ rule (builds.rules ▸ member)
  obtain ⟨term, listed, named⟩ := resolves.consequent
  refine ⟨term, builds.output ▸ listed, ?_⟩
  have active := (builds.compares bounds crisp).activates bounds builds fits term.name
  obtain ⟨strength, fires⟩ := active.fires rule member
  obtain ⟨clause, stated, graded⟩ := fires.weakest.1
  exact Extended.le_trans (high clause stated strength graded)
    ((active.strongest ⟨rule, member, named.symm⟩).2 ⟨rule, member, named.symm, fires⟩)

/-- At some sample point the joined output is as high as the level. -/
theorem exists_high (bounds : Bounds bound shape) :
    ∃ x ∈ system.output.domain.samples, number level ≤
      (system.output.terms.map fun term =>
        lesser (strengthOf (gradeUnder bound (system.inputs.zip crisp)) system.rules term.name)
          ((shape term.membership).degree x)).foldl greater 0 := by
  obtain ⟨term, member, strong⟩ := covers.exists_active builds fits bounds
  rw [builds.output] at member ⊢
  obtain ⟨x, sampled, high⟩ := covers.output term member
  exact ⟨x, sampled, le_foldl_greater
    (.inr ⟨_, List.mem_map_of_mem member, le_lesser strong high⟩)⟩

end Definition.Covers

end Activity

/-! ## Answers -/

/-- Weights count as soon as one of them does. -/
theorem heavy_of_mem {weights : List K} (nonneg : ∀ w ∈ weights, 0 ≤ w) {level : K}
    (counts : 1 / 2 ^ 52 < level) {x : Extended K} (member : x ∈ weights.map number)
    (high : number level ≤ x) : 1 / 2 ^ 52 < weights.sum := by
  obtain ⟨w, listed, rfl⟩ := List.mem_map.mp member
  exact counts.trans_le (((number_le level w).mp high).trans
    (List.single_le_sum nonneg w listed))

variable {level : K} {crisp : List (Extended K)}

/-- A type-1 system answers whatever the values of its inputs are, if they are covered. -/
theorem TypeOne.exists_answer {definition : TypeOneDefinition (Extended K)}
    {system : TypeOneSystem (Extended K)} (built : definition.build = .ok system)
    (covers : definition.Covers id level) (counts : 1 / 2 ^ 52 < level)
    (fits : crisp.length = system.inputs.length) :
    ∃ score, evaluate system crisp = .ok score := by
  have builds := Definition.builds_of_build built
  have valid : system.output.Valid := builds.output ▸ builds.validOutput
  obtain ⟨x, sampled, high⟩ := covers.exists_high builds fits .degree_self
  rw [evaluate_eq builds, if_pos fits, defuzzify_eq]
  have degrees (y : Extended K) (sampled : y ∈ system.output.domain.samples) :
      IsDegree (joined system.output.terms
        (system.strengths (gradeUnder id (system.inputs.zip crisp))) y) := by
    obtain ⟨n, rfl⟩ := Domain.number_of_mem_samples valid.domain sampled
    exact joined_isDegree (fun term member => Membership.check_of_validate
      (valid.terms term member)) _ n
  obtain ⟨xs, points, _⟩ := Domain.samples_ascending valid.domain
  obtain ⟨weights, heights, unit⟩ := exists_numbers (List.forall_mem_map.mpr degrees)
  have heavy : 1 / 2 ^ 52 < weights.sum := by
    refine heavy_of_mem (fun w member => (unit w member).1) counts
      (heights ▸ List.mem_map_of_mem sampled) ?_
    rwa [System.strengths, joined_eq_foldl]
  have paired := congrArg List.length heights
  rw [List.length_map, List.length_map, points, List.length_map] at paired
  rw [points] at heights ⊢
  rw [heights, (weightedMean?_eq_some paired).mpr ⟨heavy, rfl⟩]
  exact ⟨_, rfl⟩

/-- Lower weights that count have an interval of centroids. -/
theorem TypeTwo.Outlines.exists_interval {system : TypeTwoSystem (Extended K)}
    {activation : IntervalActivation (Extended K)} {xs lower upper : List K}
    (outlines : Outlines system activation xs lower upper)
    (heavy : 1 / 2 ^ 52 < lower.sum) : ∃ ends, reduceType system activation = .ok ends := by
  cases reduced : reduceType system activation with
  | ok ends => exact ⟨ends, rfl⟩
  | error fault =>
      rcases (outlines.reduceType_error_iff.mp reduced).2 with light | ⟨side, starves⟩
      · exact absurd ⟨heavy.trans_le (weighting_halfway outlines.bounds).le_sum⟩ light
      · exact absurd heavy (starves.light outlines.toOutline).not_gt

/-- A type-2 system answers whatever the values of its inputs are, if these are covered by the
lower bounds of its terms. -/
theorem TypeTwo.exists_answer {definition : TypeTwoDefinition (Extended K)}
    {system : TypeTwoSystem (Extended K)} (built : definition.build = .ok system)
    (covers : definition.Covers Footprint.lower level) (counts : 1 / 2 ^ 52 < level)
    (fits : crisp.length = system.inputs.length) :
    ∃ score, evaluate system crisp = .ok score := by
  have builds := Definition.builds_of_build built
  obtain ⟨x, sampled, high⟩ := covers.exists_high builds fits .lower
  rw [evaluate_eq builds, if_pos fits, defuzzify]
  obtain ⟨xs, lower, upper, outlines⟩ := exists_outlines built
    ⟨system.strengths (gradeUnder Interval.lower (system.inputs.zip crisp)),
      system.strengths (gradeUnder Interval.upper (system.inputs.zip crisp))⟩
  have heavy : 1 / 2 ^ 52 < lower.sum := by
    rw [outlines.samples] at sampled
    refine heavy_of_mem outlines.nonneg counts
      (outlines.lowerHeights ▸ List.mem_map_of_mem (List.mem_map_of_mem sampled)) ?_
    rwa [joined, System.strengths, joinedBound_eq_foldl]
  obtain ⟨⟨left, right⟩, reduced⟩ := outlines.exists_interval heavy
  exact ⟨_, bind_of_ok reduced _⟩

end Exact

end Handover.Fuzzy
