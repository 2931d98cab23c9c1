import Handover.Proofs.Fuzzy.Naming
import Handover.Proofs.Fuzzy.Profile
import Handover.Proofs.Numeric.Extremum

/-!
# Activations

A rule fires as strongly as its weakest clause, and a term of the output is as active as
the strongest rule that concludes it.  The chains of choices that compute this start from
one and from zero, which are never what decides: degrees lie between them, and every rule
has a clause.
-/

namespace Handover.Fuzzy

open Scalar

/-! ## Strengths -/

section Strengths

variable {α μ δ : Type} [Scalar α] [LawfulOrder α]

/-- The clauses are graded by values that compare, zero and one among them. -/
structure Grades (values : List α) (grade : Clause → α) : Prop where
  comparable : Comparable values
  zero : 0 ∈ values
  one : 1 ∈ values
  grade : ∀ clause, grade clause ∈ values

variable {values : List α} {grade : Clause → α}

omit [LawfulOrder α] in
theorem Rule.strength_eq_foldl (grade : Clause → α) (rule : Rule) :
    rule.strength grade = (rule.antecedents.map grade).foldl lesser 1 :=
  List.foldl_map.symm

omit [LawfulOrder α] in
theorem strengthOf_eq_foldl (grade : Clause → α) (rules : List Rule) (name : String) :
    strengthOf grade rules name =
      ((rules.filter fun rule => rule.consequent = name).map (Rule.strength grade)).foldl
        greater 0 := by
  rw [List.foldl_map, List.foldl_filter]
  simp only [decide_eq_true_eq]
  rfl

namespace Grades

variable (grades : Grades values grade)

include grades

omit [LawfulOrder α] in
theorem mem_map (rule : Rule) : ∀ x ∈ rule.antecedents.map grade, x ∈ values :=
  List.forall_mem_map.mpr fun clause _ => grades.grade clause

theorem strength_mem (rule : Rule) : rule.strength grade ∈ values := by
  rw [Rule.strength_eq_foldl]
  exact grades.comparable.selects_lesser.foldl_mem grades.one (grades.mem_map rule)

theorem strengthOf_mem (rules : List Rule) (name : String) :
    strengthOf grade rules name ∈ values := by
  rw [strengthOf_eq_foldl]
  exact grades.comparable.selects_greater.foldl_mem grades.zero
    (List.forall_mem_map.mpr fun rule _ => grades.strength_mem rule)

end Grades

end Strengths

/-! ## Compared degrees -/

section Degrees

variable {α μ δ : Type} [Scalar α] [Grading μ α δ]

/-- A bound of the degrees of a kind of membership is the degree of a membership function,
which is checked with the membership. -/
structure Bounds (bound : δ → α) (shape : μ → Membership α) : Prop where
  degree : ∀ membership x, bound (Grading.degree membership x) = (shape membership).degree x
  check : ∀ {name domain membership}, Grading.validate name domain membership = .ok () →
    (shape membership).check = .ok ()

omit [Grading μ α δ] in
theorem Bounds.degree_self : Bounds (id : α → α) (id : Membership α → Membership α) where
  degree _ _ := rfl
  check := Membership.check_of_validate

omit [Grading μ α δ] in
theorem Bounds.lower : Bounds (Interval.lower (α := α)) Footprint.lower where
  degree _ _ := rfl
  check passed := (Footprint.checks_of_validate passed).1

omit [Grading μ α δ] in
theorem Bounds.upper : Bounds (Interval.upper (α := α)) Footprint.upper where
  degree _ _ := rfl
  check passed := (Footprint.checks_of_validate passed).2.1

/-- Degrees of the inputs and of the terms of the output at its sample points. -/
def System.degrees (system : System α μ) (crisp : List α) : List δ :=
  ((system.inputs.zip crisp).flatMap fun pair => (pair.1.fuzzify? pair.2).getD []) ++
    system.output.domain.samples.flatMap fun x =>
      system.output.terms.map fun term => Grading.degree term.membership x

/-- The degrees under a bound, among which zero and one, compare as a total order. -/
def System.Compares (system : System α μ) (crisp : List α) (bound : δ → α) : Prop :=
  Comparable (0 :: 1 :: (system.degrees crisp).map bound)

instance [DecidableEq α] (system : System α μ) (crisp : List α) (bound : δ → α) :
    Decidable (system.Compares crisp bound) :=
  inferInstanceAs (Decidable (Comparable _))

/-- What grades a clause is a degree of its variable. -/
theorem mem_degrees_of_grade? {system : System α μ} {crisp : List α} {clause : Clause} {degree : δ}
    (graded : clause.grade? (system.inputs.zip crisp) = some degree) :
    degree ∈ system.degrees crisp := by
  obtain ⟨pair, found, graded⟩ := Option.bind_eq_some_iff.mp graded
  obtain ⟨term, named, graded⟩ := Option.bind_eq_some_iff.mp graded
  obtain ⟨x, clamped, rfl⟩ := Option.map_eq_some_iff.mp graded
  refine List.mem_append_left _ (List.mem_flatMap.mpr
    ⟨pair, List.mem_of_find?_eq_some found, ?_⟩)
  rw [Variable.fuzzify?, clamped]
  exact List.mem_map_of_mem (List.mem_of_find?_eq_some named)

variable {system : System α μ} {crisp : List α} {bound : δ → α}

theorem System.Compares.grades (compares : system.Compares crisp bound) :
    Grades (0 :: 1 :: (system.degrees crisp).map bound)
      (gradeUnder bound (system.inputs.zip crisp)) where
  comparable := compares
  zero := List.mem_cons_self
  one := List.mem_cons_of_mem _ List.mem_cons_self
  grade clause := by
    rw [gradeUnder]
    cases graded : clause.grade? (system.inputs.zip crisp) with
    | none => exact List.mem_cons_self
    | some degree =>
        exact List.mem_cons_of_mem _ (List.mem_cons_of_mem _
          (List.mem_map_of_mem (mem_degrees_of_grade? graded)))

/-- The degree of a term of the output at a sample point is compared. -/
theorem System.mem_compared {shape : μ → Membership α} (bounds : Bounds bound shape) {x : α}
    (sampled : x ∈ system.output.domain.samples) {term : Term μ}
    (member : term ∈ system.output.terms) :
    (shape term.membership).degree x ∈ 0 :: 1 :: (system.degrees crisp).map bound := by
  rw [← bounds.degree]
  refine List.mem_cons_of_mem _ (List.mem_cons_of_mem _ (List.mem_map_of_mem ?_))
  exact List.mem_append_right _ (List.mem_flatMap.mpr ⟨x, sampled, List.mem_map_of_mem member⟩)

end Degrees

/-! ## Activations -/

section Activations

variable {α : Type} [Scalar α]

/-- A rule fires as strongly as its weakest clause. -/
structure Rule.Fires (grade? : Clause → Option α) (rule : Rule) (strength : α) : Prop where
  graded : ∀ clause ∈ rule.antecedents, ∃ degree, grade? clause = some degree
  weakest : IsLeast {degree | ∃ clause ∈ rule.antecedents, grade? clause = some degree} strength

/-- A name is activated as strongly as the strongest rule that concludes it fires. -/
structure Activates (grade? : Clause → Option α) (rules : List Rule) (name : String)
    (activation : α) : Prop where
  fires : ∀ rule ∈ rules, ∃ strength, rule.Fires grade? strength
  idle : (∀ rule ∈ rules, rule.consequent ≠ name) → activation = 0
  strongest : (∃ rule ∈ rules, rule.consequent = name) → IsGreatest
    {strength | ∃ rule ∈ rules, rule.consequent = name ∧ rule.Fires grade? strength} activation

section Grading

variable {μ δ : Type} [Grading μ α δ]

/-- Grade of a clause under one bound of its degree, if it has a degree. -/
def gradeUnder? (bound : δ → α) (pairs : List (Variable α μ × α)) (clause : Clause) : Option α :=
  (clause.grade? pairs).map bound

theorem gradeUnder_of_some {bound : δ → α} {pairs : List (Variable α μ × α)} {clause : Clause}
    {grade : α} (graded : gradeUnder? bound pairs clause = some grade) :
    gradeUnder bound pairs clause = grade :=
  congrArg (Option.getD · 0) graded

/-- The rules activate the terms of the output under a bound of the degrees. -/
def System.ActivatedBy (system : System α μ) (crisp : List α) (bound : δ → α)
    (activation : List α) : Prop :=
  List.Forall₂
    (fun term => Activates (gradeUnder? bound (system.inputs.zip crisp)) system.rules term.name)
    system.output.terms activation

end Grading

variable {μ δ : Type} [Grading μ α δ] [UnitOrder α] [FiniteOrder α]
  {definition : Definition α μ} {system : System α μ} {crisp : List α} {bound : δ → α}
  {shape : μ → Membership α}

omit [UnitOrder α] in
/-- Every clause of a rule of a built system has a degree. -/
theorem Definition.Builds.exists_gradeUnder? (builds : definition.Builds system)
    (fits : crisp.length = system.inputs.length) (bound : δ → α) {rule : Rule}
    (member : rule ∈ system.rules) {clause : Clause} (stated : clause ∈ rule.antecedents) :
    ∃ grade, gradeUnder? bound (system.inputs.zip crisp) clause = some grade := by
  have resolves := (exists_indexRules_iff 0).mp ⟨_, builds.indexed⟩ rule (builds.rules ▸ member)
  obtain ⟨term, named⟩ := resolves.clauses clause stated
  rw [← builds.inputs, ← List.map_fst_zip fits.ge, Clause.term?, List.find?_map,
    Option.bind_map] at named
  obtain ⟨pair, found, named⟩ := Option.bind_eq_some_iff.mp named
  have input : pair.1 ∈ definition.inputs := by
    rw [← builds.inputs]
    exact (List.of_mem_zip (List.mem_of_find?_eq_some found)).1
  obtain ⟨x, clamped⟩ := Domain.exists_clamp? (builds.validInputs _ input).domain pair.2
  refine ⟨bound (Grading.degree term.membership x), Option.map_eq_some_iff.mpr ⟨_, ?_, rfl⟩⟩
  refine Option.bind_eq_some_iff.mpr ⟨pair, found, Option.bind_eq_some_iff.mpr ⟨term, named, ?_⟩⟩
  rw [clamped, Option.map_some]

namespace System.Compares

variable (compares : system.Compares crisp bound)

include compares

omit [UnitOrder α] [FiniteOrder α] in
theorem mem_of_graded {clause : Clause} {grade : α}
    (graded : gradeUnder? bound (system.inputs.zip crisp) clause = some grade) :
    grade ∈ 0 :: 1 :: (system.degrees crisp).map bound :=
  gradeUnder_of_some graded ▸ compares.grades.grade clause

omit [FiniteOrder α] in
theorem grade_between (bounds : Bounds bound shape) {clause : Clause} {grade : α}
    (graded : gradeUnder? bound (system.inputs.zip crisp) clause = some grade) :
    0 ≤ grade ∧ grade ≤ 1 := by
  have number := (compares _ (compares.mem_of_graded graded)).1
  obtain ⟨degree, found, rfl⟩ := Option.map_eq_some_iff.mp graded
  obtain ⟨pair, _, found⟩ := Option.bind_eq_some_iff.mp found
  obtain ⟨term, _, found⟩ := Option.bind_eq_some_iff.mp found
  obtain ⟨x, _, rfl⟩ := Option.map_eq_some_iff.mp found
  rw [bounds.degree, Membership.degree] at number ⊢
  exact clampUnit_between number

omit [FiniteOrder α] in
/-- A rule whose clauses have degrees fires as strongly as its chain of choices ends. -/
theorem fires (bounds : Bounds bound shape) {rule : Rule} (nonempty : rule.antecedents ≠ [])
    (graded : ∀ clause ∈ rule.antecedents,
      ∃ grade, gradeUnder? bound (system.inputs.zip crisp) clause = some grade) :
    rule.Fires (gradeUnder? bound (system.inputs.zip crisp))
      (rule.strength (gradeUnder bound (system.inputs.zip crisp))) := by
  have known (clause : Clause) (stated : clause ∈ rule.antecedents) :
      gradeUnder? bound (system.inputs.zip crisp) clause =
        some (gradeUnder bound (system.inputs.zip crisp) clause) := by
    obtain ⟨grade, graded⟩ := graded clause stated
    rw [gradeUnder_of_some graded, graded]
  have grades := compares.grades
  obtain ⟨reached, least⟩ := grades.comparable.selects_lesser.foldl_mem_of_behind grades.one
    (grades.mem_map rule) (List.map_eq_nil_iff.not.mpr nonempty) (List.forall_mem_map.mpr
      fun clause stated => (compares.grade_between bounds (known clause stated)).2)
  rw [← Rule.strength_eq_foldl] at reached least
  refine ⟨graded, ?_, ?_⟩
  · obtain ⟨clause, stated, weakest⟩ := List.mem_map.mp reached
    exact ⟨clause, stated, weakest ▸ known clause stated⟩
  · rintro grade ⟨clause, stated, graded⟩
    rw [← gradeUnder_of_some graded]
    exact least _ (List.mem_map_of_mem stated)

omit [FiniteOrder α] in
/-- A rule fires with one strength. -/
theorem strength_unique {rule : Rule} {strength other : α}
    (fires : rule.Fires (gradeUnder? bound (system.inputs.zip crisp)) strength)
    (again : rule.Fires (gradeUnder? bound (system.inputs.zip crisp)) other) :
    strength = other := by
  obtain ⟨_, _, first⟩ := fires.weakest.1
  obtain ⟨_, _, second⟩ := again.weakest.1
  exact Comparable.le_antisymm compares (compares.mem_of_graded first)
    (compares.mem_of_graded second) (fires.weakest.2 again.weakest.1)
    (again.weakest.2 fires.weakest.1)

/-- The rules of a built system activate a name as strongly as their chain of choices ends. -/
theorem activates (bounds : Bounds bound shape) (builds : definition.Builds system)
    (fits : crisp.length = system.inputs.length) (name : String) :
    Activates (gradeUnder? bound (system.inputs.zip crisp)) system.rules name
      (strengthOf (gradeUnder bound (system.inputs.zip crisp)) system.rules name) := by
  have grades := compares.grades
  have fire (rule : Rule) (member : rule ∈ system.rules) := compares.fires bounds
    ((exists_indexRules_iff 0).mp ⟨_, builds.indexed⟩ rule (builds.rules ▸ member)).nonempty
    fun clause stated => builds.exists_gradeUnder? fits bound member stated
  have concluding (rule : Rule) : (rule ∈ system.rules.filter fun rule => rule.consequent = name) ↔
      rule ∈ system.rules ∧ rule.consequent = name := by
    rw [List.mem_filter, decide_eq_true_iff]
  refine ⟨fun rule member => ⟨_, fire rule member⟩, fun idle => ?_, ?_⟩
  · rw [strengthOf_eq_foldl, List.filter_eq_nil_iff.mpr]
    · rfl
    · exact fun rule member => by rw [decide_eq_true_iff]; exact idle rule member
  · rintro ⟨rule, member, concludes⟩
    have nonempty := List.ne_nil_of_mem (List.mem_map_of_mem (f := Rule.strength
      (gradeUnder bound (system.inputs.zip crisp))) ((concluding rule).mpr ⟨member, concludes⟩))
    obtain ⟨reached, greatest⟩ := grades.comparable.selects_greater.foldl_mem_of_behind grades.zero
      (List.forall_mem_map.mpr fun rule _ => grades.strength_mem rule) nonempty
      (List.forall_mem_map.mpr fun rule stated => by
        obtain ⟨clause, _, graded⟩ := (fire rule ((concluding rule).mp stated).1).weakest.1
        exact (compares.grade_between bounds graded).1)
    rw [← strengthOf_eq_foldl] at reached greatest
    constructor
    · obtain ⟨strongest, stated, same⟩ := List.mem_map.mp reached
      obtain ⟨member, concludes⟩ := (concluding strongest).mp stated
      exact ⟨strongest, member, concludes, same ▸ fire strongest member⟩
    · rintro strength ⟨other, member, concludes, fires⟩
      rw [compares.strength_unique fires (fire other member)]
      exact greatest _ (List.mem_map_of_mem ((concluding other).mpr ⟨member, concludes⟩))

/-- The compiled rules activate the terms of the output as the rules do. -/
theorem activatedBy (bounds : Bounds bound shape) (builds : definition.Builds system)
    (fits : crisp.length = system.inputs.length) {fuzzified : List (List δ)}
    (graded : system.fuzzify crisp = .ok fuzzified) :
    system.ActivatedBy crisp bound (activations system.output.terms.length system.indexed
      (fuzzified.map (List.map bound))) := by
  rw [builds.activations_eq fits graded, System.ActivatedBy, System.strengths,
    List.forall₂_map_right_iff, List.forall₂_same]
  exact fun term _ => compares.activates bounds builds fits term.name

end System.Compares

end Activations

/-! ## Joined heights -/

section Heights

variable {α : Type} [Scalar α]

theorem TypeOne.joined_eq_foldl (terms : List (Term (Membership α)))
    (activity : Term (Membership α) → α) (x : α) :
    joined terms (terms.map activity) x =
      (terms.map fun term =>
        lesser (activity term) (term.membership.degree x)).foldl greater 0 := by
  rw [joined, List.foldl_map, List.zip_eq_zipWith, List.zipWith_map_right, List.zipWith_self,
    List.foldl_map]

theorem TypeTwo.joinedBound_eq_foldl (bound : Footprint α → Membership α)
    (terms : List (Term (Footprint α))) (activity : Term (Footprint α) → α) (x top : α) :
    joinedBound bound x terms (terms.map activity) top =
      (terms.map fun term => lesser (activity term) ((bound term.membership).degree x)).foldl
        greater top := by
  induction terms generalizing top with
  | nil => rfl
  | cons term rest ih => exact ih _

end Heights

/-! ## Exact arithmetic -/

section Exact

variable {K : Type} [Field K] [LinearOrder K] [IsStrictOrderedRing K] [FloorSemiring K]
  [Exponential K] {μ δ : Type} [Grading μ (Extended K) δ]

/-- Without rounding, all degrees of a built system compare. -/
theorem Definition.Builds.compares {definition : Definition (Extended K) μ}
    {system : System (Extended K) μ} (builds : definition.Builds system) {bound : δ → Extended K}
    {shape : μ → Membership (Extended K)} (bounds : Bounds bound shape)
    (crisp : List (Extended K)) : system.Compares crisp bound := by
  have graded {item : Variable (Extended K) μ} (valid : item.Valid) {term : Term μ}
      (member : term ∈ item.terms) (x : K) :
      ∃ d, bound (Grading.degree term.membership (Extended.number x)) = .number d := by
    rw [bounds.degree]
    exact Membership.degree_number (bounds.check (valid.terms term member)) x
  have numbers : ∀ x ∈ 0 :: 1 :: (system.degrees crisp).map bound, ∃ d, x = Extended.number d := by
    rw [List.forall_mem_cons, List.forall_mem_cons, List.forall_mem_map]
    refine ⟨⟨0, rfl⟩, ⟨1, rfl⟩, fun degree member => ?_⟩
    rcases List.mem_append.mp member with input | output
    · obtain ⟨pair, listed, member⟩ := List.mem_flatMap.mp input
      have valid := builds.validInputs pair.1 (builds.inputs ▸ (List.of_mem_zip listed).1)
      obtain ⟨x, clamped, _⟩ := Domain.clamp?_number valid.domain pair.2
      rw [Variable.fuzzify?, clamped] at member
      obtain ⟨term, named, rfl⟩ := List.mem_map.mp member
      exact graded valid named x
    · obtain ⟨x, sampled, member⟩ := List.mem_flatMap.mp output
      obtain ⟨term, named, rfl⟩ := List.mem_map.mp member
      have valid : system.output.Valid := builds.output ▸ builds.validOutput
      obtain ⟨n, rfl⟩ := Domain.number_of_mem_samples valid.domain sampled
      exact graded valid named n
  intro x known
  obtain ⟨d, rfl⟩ := numbers x known
  refine ⟨rfl, fun y other => ?_⟩
  obtain ⟨e, rfl⟩ := numbers y other
  rw [Extended.number_lt, Extended.number_lt, Extended.number.injEq]
  exact lt_trichotomy d e

end Exact

end Handover.Fuzzy
