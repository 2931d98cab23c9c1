import Handover.Proofs.Fuzzy.Activation

/-!
# The arrangement of a description

A rule is as strong as the least degree of its clauses, a term of the output as the
strongest rule that concludes it, and the joined output is as high as the highest of its
clipped terms.  None of this depends on an order, nor on how often a rule or a clause is
written.  So a description may be rearranged: the system that is built from it gives the
same answers.
-/

namespace Handover.Fuzzy

open Scalar

/-! ## Lists in another order -/

section Lists

variable {ρ τ : Type}

/-- One list has the counterparts of the items of another, in some order. -/
def Reordered (R : ρ → τ → Prop) (xs : List ρ) (ys : List τ) : Prop :=
  ∃ middle, xs.Perm middle ∧ List.Forall₂ R middle ys

namespace Reordered

variable {R : ρ → τ → Prop} {xs : List ρ} {ys : List τ} {key : ρ → String} {label : τ → String}

theorem length_eq (reordered : Reordered R xs ys) : ys.length = xs.length := by
  obtain ⟨middle, listed, related⟩ := reordered
  rw [← related.length_eq, listed.length_eq]

theorem exists_original (reordered : Reordered R xs ys) {y : τ} (member : y ∈ ys) :
    ∃ x ∈ xs, R x y := by
  obtain ⟨middle, listed, related⟩ := reordered
  obtain ⟨x, known, here⟩ := exists_left_of_forall₂ related member
  exact ⟨x, listed.mem_iff.mpr known, here⟩

theorem perm_map (reordered : Reordered R xs ys) (named : ∀ x y, R x y → label y = key x) :
    (xs.map key).Perm (ys.map label) := by
  obtain ⟨middle, listed, related⟩ := reordered
  have same : ys.map label = middle.map key := by
    rw [← List.forall₂_eq_eq_eq, List.forall₂_map_left_iff, List.forall₂_map_right_iff]
    exact related.flip.imp fun y x => named x y
  rw [same]
  exact listed.map key

/-- What is found under a unique name are counterparts. -/
theorem find? (reordered : Reordered R xs ys) (unique : (xs.map key).Nodup)
    (named : ∀ x y, R x y → label y = key x) (name : String) :
    (xs.find? fun x => key x == name) = none ∧ (ys.find? fun y => label y == name) = none ∨
      ∃ x y, (xs.find? fun x => key x == name) = some x ∧
        (ys.find? fun y => label y == name) = some y ∧ R x y := by
  obtain ⟨middle, listed, related⟩ := reordered
  rw [find?_eq_of_perm listed unique]
  clear listed
  induction related with
  | nil => exact .inl ⟨rfl, rfl⟩
  | @cons x y _ _ first _ ih =>
      rw [List.find?_cons, List.find?_cons, named x y first]
      split
      · exact .inr ⟨x, y, rfl, rfl, first⟩
      · exact ih

end Reordered

end Lists

/-! ## Rearranged descriptions -/

section Descriptions

variable {α μ : Type}

/-- The same variable with its terms in another order. -/
structure Variable.Rearranges (item other : Variable α μ) : Prop where
  name : other.name = item.name
  domain : other.domain = item.domain
  terms : item.terms.Perm other.terms

/-- The same rule with its clauses in another order, or written another number of times. -/
structure Rule.Rearranges (rule other : Rule) : Prop where
  antecedents : ∀ clause, clause ∈ other.antecedents ↔ clause ∈ rule.antecedents
  consequent : other.consequent = rule.consequent

instance (rule other : Rule) : Decidable (rule.Rearranges other) :=
  decidable_of_iff
    ((other.antecedents ⊆ rule.antecedents ∧ rule.antecedents ⊆ other.antecedents) ∧
      other.consequent = rule.consequent)
    ⟨fun same => ⟨fun _ => ⟨(same.1.1 ·), (same.1.2 ·)⟩, same.2⟩,
      fun same => ⟨⟨fun _ => (same.antecedents _).mp, fun _ => (same.antecedents _).mpr⟩,
        same.consequent⟩⟩

/-- The same description up to the order of its inputs, of the terms of a variable, of its
rules and of their clauses, and up to the repetition of rules and clauses. -/
structure Definition.Rearranges (definition other : Definition α μ) : Prop where
  inputs : Reordered Variable.Rearranges definition.inputs other.inputs
  output : definition.output.Rearranges other.output
  rules : ∀ rule ∈ definition.rules, ∃ copy ∈ other.rules, rule.Rearranges copy
  originals : ∀ copy ∈ other.rules, ∃ rule ∈ definition.rules, rule.Rearranges copy

/-- Every variable has the same value in both lists. -/
def SameReadings (pairs others : List (Variable α μ × α)) : Prop :=
  Reordered (fun pair other => pair.1.Rearranges other.1 ∧ other.2 = pair.2) pairs others

/-- A list of values moved along with the input variables.  A list that does not fit is only
moved to one of the same length. -/
structure System.Carries (system arranged : System α μ) (crisp moved : List α) : Prop where
  length : moved.length = crisp.length
  readings : crisp.length = system.inputs.length →
    SameReadings (system.inputs.zip crisp) (arranged.inputs.zip moved)

/-- Values can be moved along with the variables. -/
theorem System.exists_carries {system arranged : System α μ}
    (inputs : Reordered Variable.Rearranges system.inputs arranged.inputs) (crisp : List α) :
    ∃ moved, system.Carries arranged crisp moved := by
  by_cases fits : crisp.length = system.inputs.length
  · obtain ⟨middle, listed, related⟩ := inputs
    have firsts : List.Forall₂ (fun pair input => pair.1 = input)
        (system.inputs.zip crisp) system.inputs := by
      conv => arg 3; rw [← List.map_fst_zip fits.ge]
      exact List.forall₂_map_right_iff.mpr (List.forall₂_same.mpr fun _ _ => rfl)
    -- The pairs are put into the order of the variables.
    obtain ⟨pairs, moves, named⟩ : Relation.Comp List.Perm
        (List.Forall₂ fun (pair : Variable α μ × α) input => pair.1 = input)
        (system.inputs.zip crisp) middle := by
      rw [← List.forall₂_comp_perm_eq_perm_comp_forall₂]
      exact ⟨_, firsts, listed⟩
    have length : pairs.length = crisp.length := by
      rw [← moves.length_eq, List.length_zip, fits, Nat.min_self]
    refine ⟨pairs.map Prod.snd, by rw [List.length_map, length], fun _ => ⟨pairs, moves, ?_⟩⟩
    clear moves length listed firsts
    generalize arranged.inputs = others at related
    induction named generalizing others with
    | nil =>
        cases related
        exact .nil
    | cons first _ ih =>
        obtain _ | ⟨here, later⟩ := related
        exact .cons ⟨first ▸ here, rfl⟩ (ih _ later)
  · exact ⟨crisp, rfl, fun same => absurd same fits⟩

end Descriptions

/-! ## Building -/

section Building

variable {α μ δ : Type} [Scalar α] [Grading μ α δ]

/-- The terms of a variable have unique names. -/
def Variable.Distinct (item : Variable α μ) : Prop :=
  (item.terms.map Term.name).Nodup

omit [Scalar α] in
theorem Variable.Rearranges.find? {item other : Variable α μ} (rearranges : item.Rearranges other)
    (distinct : item.Distinct) (name : String) :
    (other.terms.find? fun term => term.name == name) =
      item.terms.find? fun term => term.name == name :=
  (find?_eq_of_perm rearranges.terms distinct name).symm

theorem Variable.Rearranges.valid {item other : Variable α μ} (rearranges : item.Rearranges other)
    (valid : item.Valid) : other.Valid where
  domain := rearranges.domain ▸ valid.domain
  nonempty empty := valid.nonempty (List.perm_nil.mp (empty ▸ rearranges.terms))
  unique := unique_iff_nodup.mpr
    ((rearranges.terms.map Term.name).nodup_iff.mp (unique_iff_nodup.mp valid.unique))
  terms term member := by
    rw [rearranges.domain]
    exact valid.terms term (rearranges.terms.mem_iff.mpr member)

omit [Scalar α] in
/-- A clause names the same term in whatever order variables and terms are listed. -/
theorem Clause.term?_of_reordered {inputs others : List (Variable α μ)}
    (reordered : Reordered Variable.Rearranges inputs others)
    (unique : (inputs.map Variable.name).Nodup) (distinct : ∀ input ∈ inputs, input.Distinct)
    (clause : Clause) : clause.term? others = clause.term? inputs := by
  rw [term?, term?]
  rcases reordered.find? unique (fun _ _ rearranges => rearranges.name) clause.variableName with
    ⟨before, after⟩ | ⟨input, other, before, after, rearranges⟩
  · rw [before, after]
  · rw [before, after]
    exact rearranges.find? (distinct input (List.mem_of_find?_eq_some before)) clause.term

variable {definition other : Definition α μ} {system : System α μ}

theorem Definition.Builds.distinct (builds : definition.Builds system) :
    ∀ input ∈ definition.inputs, input.Distinct :=
  fun input member => unique_iff_nodup.mp (builds.validInputs input member).unique

omit [Scalar α] [Grading μ α δ] in
theorem Rule.Rearranges.ne_nil {rule copy : Rule} (rearranges : rule.Rearranges copy)
    (nonempty : rule.antecedents ≠ []) : copy.antecedents ≠ [] := by
  obtain ⟨clause, member⟩ := List.exists_mem_of_ne_nil _ nonempty
  exact List.ne_nil_of_mem ((rearranges.antecedents clause).mpr member)

/-- A rearranged description can be built if the description can. -/
theorem Definition.Rearranges.exists_build (rearranges : definition.Rearranges other)
    (built : definition.build = .ok system) : ∃ arranged, other.build = .ok arranged := by
  have builds := builds_of_build built
  have unique := unique_iff_nodup.mp builds.unique
  have resolves := (exists_indexRules_iff 0).mp ⟨_, builds.indexed⟩
  obtain ⟨indexed, resolved⟩ :
      ∃ indexed, indexRules other.inputs other.output 0 other.rules = .ok indexed := by
    rw [exists_indexRules_iff]
    intro copy member
    obtain ⟨rule, original, same⟩ := rearranges.originals copy member
    obtain ⟨nonempty, clauses, term, named, concluded⟩ := resolves rule original
    refine ⟨same.ne_nil nonempty, fun clause stated => ?_, term, ?_, ?_⟩
    · rw [Clause.term?_of_reordered rearranges.inputs unique builds.distinct]
      exact clauses clause ((same.antecedents clause).mp stated)
    · exact rearranges.output.terms.mem_iff.mp named
    · rw [same.consequent, concluded]
  refine ⟨_, build_of_valid (fun input member => ?_) (rearranges.output.valid builds.validOutput)
    ?_ ?_ resolved⟩
  · obtain ⟨original, listed, same⟩ := rearranges.inputs.exists_original member
    exact same.valid (builds.validInputs original listed)
  · have names := rearranges.inputs.perm_map fun _ _ same => same.name
    exact unique_iff_nodup.mpr (names.nodup_iff.mp unique)
  · obtain ⟨rule, member⟩ := List.exists_mem_of_ne_nil _ builds.nonempty
    obtain ⟨copy, copied, _⟩ := rearranges.rules rule member
    exact List.ne_nil_of_mem copied

/-- Clauses have the same grades where variables have the same values. -/
theorem gradeUnder_of_sameReadings (bound : δ → α) {pairs others : List (Variable α μ × α)}
    (same : SameReadings pairs others) (unique : (pairs.map fun pair => pair.1.name).Nodup)
    (distinct : ∀ pair ∈ pairs, pair.1.Distinct) :
    gradeUnder bound others = gradeUnder bound pairs := by
  funext clause
  rw [gradeUnder, gradeUnder, Clause.grade?, Clause.grade?]
  rcases same.find? unique (fun _ _ rearranges => rearranges.1.name) clause.variableName with
    ⟨before, after⟩ | ⟨pair, other, before, after, rearranges, value⟩
  · rw [before, after]
  · have distinct := distinct pair (List.mem_of_find?_eq_some before)
    simp only [before, after, Option.bind_some, rearranges.find? distinct, rearranges.domain, value]

end Building

/-! ## Strengths -/

namespace Grades

variable {α μ : Type} [Scalar α] [LawfulOrder α] {values : List α} {grade : Clause → α}
  (grades : Grades values grade)

include grades

/-- A rearranged rule is as strong as the rule. -/
theorem strength_rearranged {rule copy : Rule} (rearranges : rule.Rearranges copy) :
    copy.strength grade = rule.strength grade := by
  rw [Rule.strength_eq_foldl, Rule.strength_eq_foldl]
  refine grades.comparable.selects_lesser.foldl_congr grades.one (grades.mem_map rule) fun x => ?_
  simp only [List.mem_map, rearranges.antecedents]

/-- A name is as strong under rearranged rules as under the rules. -/
theorem strengthOf_rearranged {rules copies : List Rule}
    (copied : ∀ rule ∈ rules, ∃ copy ∈ copies, rule.Rearranges copy)
    (originals : ∀ copy ∈ copies, ∃ rule ∈ rules, rule.Rearranges copy) (name : String) :
    strengthOf grade copies name = strengthOf grade rules name := by
  rw [strengthOf_eq_foldl, strengthOf_eq_foldl]
  refine grades.comparable.selects_greater.foldl_congr grades.zero
    (List.forall_mem_map.mpr fun rule _ => grades.strength_mem rule) fun x => ?_
  simp only [List.mem_map, List.mem_filter, decide_eq_true_eq]
  constructor
  · rintro ⟨copy, ⟨member, concludes⟩, rfl⟩
    obtain ⟨rule, original, same⟩ := originals copy member
    exact ⟨rule, ⟨original, same.consequent ▸ concludes⟩, (grades.strength_rearranged same).symm⟩
  · rintro ⟨rule, ⟨member, concludes⟩, rfl⟩
    obtain ⟨copy, written, same⟩ := copied rule member
    exact ⟨copy, ⟨written, same.consequent.trans concludes⟩, grades.strength_rearranged same⟩

/-- Clipped terms join to the same height in every order. -/
theorem height_of_perm {terms others : List (Term μ)} (listed : terms.Perm others)
    (activity degree : Term μ → α) (active : ∀ term, activity term ∈ values)
    (graded : ∀ term ∈ terms, degree term ∈ values) :
    (others.map fun term => lesser (activity term) (degree term)).foldl greater 0 =
      (terms.map fun term => lesser (activity term) (degree term)).foldl greater 0 := by
  refine grades.comparable.selects_greater.foldl_congr grades.zero ?_
    fun x => ((listed.map _).mem_iff).symm
  refine List.forall_mem_map.mpr fun term member => ?_
  have either := grades.comparable.selects_lesser.either _ (active term) _ (graded term member)
  rcases either with ⟨kept, _⟩ | ⟨kept, _⟩
  · rw [kept]
    exact active term
  · rw [kept]
    exact graded term member

end Grades

/-! ## Joined heights -/

section Heights

variable {α : Type} [Scalar α]

theorem TypeOne.defuzzify_of_joined {system other : TypeOneSystem α} {activation moved : List α}
    (name : other.output.name = system.output.name)
    (domain : other.output.domain = system.output.domain)
    (heights : ∀ x ∈ system.output.domain.samples,
      joined other.output.terms moved x = joined system.output.terms activation x) :
    defuzzify other moved = defuzzify system activation := by
  have points : aggregate other moved = aggregate system activation := by
    rw [aggregate, aggregate, domain]
    exact List.map_congr_left fun x sampled => by rw [heights x sampled]
  rw [defuzzify, defuzzify, points, name]

theorem TypeTwo.defuzzify_of_joined {system other : TypeTwoSystem α}
    {activation moved : IntervalActivation α} (name : other.output.name = system.output.name)
    (domain : other.output.domain = system.output.domain)
    (heights : ∀ x ∈ system.output.domain.samples,
      joined other moved x = joined system activation x) :
    defuzzify other moved = defuzzify system activation := by
  have reduced : reduceType other moved = reduceType system activation := by
    rw [reduceType, reduceType, domain, name, List.map_congr_left heights]
  rw [defuzzify, defuzzify, reduced]

end Heights

/-! ## Answers -/

section Answers

variable {α μ δ : Type} [Scalar α] [LawfulOrder α] [Grading μ α δ]
  {definition other : Definition α μ} {system arranged : System α μ} {crisp moved : List α}
  {bound : δ → α}

/-- A system, the system of the rearranged description and the values that both are given. -/
structure Arranged (definition other : Definition α μ) (system arranged : System α μ)
    (crisp moved : List α) : Prop where
  builds : definition.Builds system
  rebuilds : other.Builds arranged
  rearranges : definition.Rearranges other
  carries : system.Carries arranged crisp moved

namespace Arranged

variable (sides : Arranged definition other system arranged crisp moved)

include sides

omit [LawfulOrder α] in
theorem output : system.output.Rearranges arranged.output := by
  rw [sides.builds.output, sides.rebuilds.output]
  exact sides.rearranges.output

omit [LawfulOrder α] in
theorem length_inputs : arranged.inputs.length = system.inputs.length := by
  rw [sides.builds.inputs, sides.rebuilds.inputs]
  exact sides.rearranges.inputs.length_eq

omit [LawfulOrder α] in
theorem gradeUnder_eq (fits : crisp.length = system.inputs.length) (bound : δ → α) :
    gradeUnder bound (arranged.inputs.zip moved) = gradeUnder bound (system.inputs.zip crisp) := by
  refine gradeUnder_of_sameReadings bound (sides.carries.readings fits) ?_ fun pair member => ?_
  · rw [map_name_zip fits, sides.builds.inputs]
    exact unique_iff_nodup.mp sides.builds.unique
  · refine sides.builds.distinct pair.1 ?_
    rw [← sides.builds.inputs]
    exact (List.of_mem_zip member).1

/-- Names are as strong in both systems. -/
theorem strengthOf_eq (fits : crisp.length = system.inputs.length)
    (compares : system.Compares crisp bound) (name : String) :
    strengthOf (gradeUnder bound (arranged.inputs.zip moved)) arranged.rules name =
      strengthOf (gradeUnder bound (system.inputs.zip crisp)) system.rules name := by
  rw [sides.gradeUnder_eq fits, sides.builds.rules, sides.rebuilds.rules]
  exact compares.grades.strengthOf_rearranged sides.rearranges.rules sides.rearranges.originals name

/-- The clipped terms are joined to the same height at every sample point. -/
theorem height_eq {shape : μ → Membership α} (bounds : Bounds bound shape)
    (fits : crisp.length = system.inputs.length) (compares : system.Compares crisp bound) {x : α}
    (sampled : x ∈ system.output.domain.samples) :
    (arranged.output.terms.map fun term =>
      lesser (strengthOf (gradeUnder bound (arranged.inputs.zip moved)) arranged.rules term.name)
        ((shape term.membership).degree x)).foldl greater 0 =
    (system.output.terms.map fun term =>
      lesser (strengthOf (gradeUnder bound (system.inputs.zip crisp)) system.rules term.name)
        ((shape term.membership).degree x)).foldl greater 0 := by
  simp only [sides.strengthOf_eq fits compares]
  exact compares.grades.height_of_perm sides.output.terms
    (fun term => strengthOf _ system.rules term.name) (fun term => (shape term.membership).degree x)
    (fun term => compares.grades.strengthOf_mem system.rules term.name)
    fun term member => System.mem_compared bounds sampled member

end Arranged

/-- A system answers as another one does when the values are moved along with the variables,
provided that its degrees compare. -/
structure System.AnswersAs (evaluate : System α μ → List α → Except (FuzzyError α) α)
    (bounds : List (δ → α)) (system arranged : System α μ) : Prop where
  moves : ∀ crisp, ∃ moved, system.Carries arranged crisp moved
  answers : ∀ {crisp moved}, system.Carries arranged crisp moved →
    (∀ bound ∈ bounds, system.Compares crisp bound) →
      evaluate arranged moved = evaluate system crisp

omit [LawfulOrder α] in
theorem Arranged.exists_carries (builds : definition.Builds system)
    (rebuilds : other.Builds arranged) (rearranges : definition.Rearranges other)
    (crisp : List α) : ∃ moved, system.Carries arranged crisp moved := by
  apply System.exists_carries
  rw [builds.inputs, rebuilds.inputs]
  exact rearranges.inputs

end Answers

section Evaluation

variable {α : Type} [Scalar α] [UnitOrder α] [FiniteOrder α]

theorem TypeOne.answersAs {definition other : TypeOneDefinition α}
    {system arranged : TypeOneSystem α} (builds : definition.Builds system)
    (rebuilds : other.Builds arranged) (rearranges : definition.Rearranges other) :
    system.AnswersAs evaluate [id] arranged where
  moves := Arranged.exists_carries builds rebuilds rearranges
  answers {crisp moved} carries compares := by
    have sides : Arranged definition other system arranged crisp moved :=
      ⟨builds, rebuilds, rearranges, carries⟩
    rw [evaluate_eq builds, evaluate_eq rebuilds, carries.length, sides.length_inputs]
    split_ifs with fits
    · refine defuzzify_of_joined sides.output.name sides.output.domain fun x sampled => ?_
      rw [System.strengths, System.strengths, joined_eq_foldl, joined_eq_foldl]
      exact sides.height_eq .degree_self fits (compares id List.mem_cons_self) sampled
    · rfl

theorem TypeTwo.answersAs {definition other : TypeTwoDefinition α}
    {system arranged : TypeTwoSystem α} (builds : definition.Builds system)
    (rebuilds : other.Builds arranged) (rearranges : definition.Rearranges other) :
    system.AnswersAs evaluate [Interval.lower, Interval.upper] arranged where
  moves := Arranged.exists_carries builds rebuilds rearranges
  answers {crisp moved} carries compares := by
    have sides : Arranged definition other system arranged crisp moved :=
      ⟨builds, rebuilds, rearranges, carries⟩
    rw [List.forall_mem_cons, List.forall_mem_singleton] at compares
    rw [evaluate_eq builds, evaluate_eq rebuilds, carries.length, sides.length_inputs]
    split_ifs with fits
    · refine defuzzify_of_joined sides.output.name sides.output.domain fun x sampled => ?_
      have low := sides.height_eq .lower fits compares.1 sampled
      have high := sides.height_eq .upper fits compares.2 sampled
      simp only [joined, System.strengths, joinedBound_eq_foldl, low, high]
    · rfl

/-- The order and the repetition of rules do not matter.  A description that is rearranged can
still be built, and what is built answers every list of values, moved along with the
variables, with the same score or the same fault, as long as membership degrees compare as a
total order.  Every term of the output is activated as strongly as the strongest rule that
concludes it, and a rule is as strong as its weakest clause. -/
theorem arrangement_immaterial :
    (∀ {definition : TypeOneDefinition α} {system : TypeOneSystem α},
      definition.build = .ok system →
        (∀ other, definition.Rearranges other →
          ∃ arranged, other.build = .ok arranged ∧
            system.AnswersAs TypeOne.evaluate [id] arranged) ∧
        ∀ crisp, crisp.length = system.inputs.length → system.Compares crisp id →
          ∃ fuzzified, system.fuzzify crisp = .ok fuzzified ∧
            system.ActivatedBy crisp id (TypeOne.activate system fuzzified)) ∧
    ∀ {definition : TypeTwoDefinition α} {system : TypeTwoSystem α},
      definition.build = .ok system →
        (∀ other, definition.Rearranges other →
          ∃ arranged, other.build = .ok arranged ∧
            system.AnswersAs TypeTwo.evaluate [Interval.lower, Interval.upper] arranged) ∧
        ∀ crisp, crisp.length = system.inputs.length → system.Compares crisp Interval.lower →
          system.Compares crisp Interval.upper →
            ∃ fuzzified, system.fuzzify crisp = .ok fuzzified ∧
              system.ActivatedBy crisp Interval.lower (TypeTwo.activate system fuzzified).lower ∧
              system.ActivatedBy crisp Interval.upper
                (TypeTwo.activate system fuzzified).upper := by
  constructor
  · intro definition system built
    have builds := Definition.builds_of_build built
    refine ⟨fun other rearranges => ?_, fun crisp fits compares => ?_⟩
    · obtain ⟨arranged, rebuilt⟩ := rearranges.exists_build built
      exact ⟨arranged, rebuilt,
        TypeOne.answersAs builds (Definition.builds_of_build rebuilt) rearranges⟩
    · obtain ⟨fuzzified, graded⟩ := System.exists_fuzzify (System.ranged_of_builds builds) fits
      have active := compares.activatedBy .degree_self builds fits graded
      rw [List.map_id_fun, List.map_id] at active
      exact ⟨fuzzified, graded, active⟩
  · intro definition system built
    have builds := Definition.builds_of_build built
    refine ⟨fun other rearranges => ?_, fun crisp fits lower upper => ?_⟩
    · obtain ⟨arranged, rebuilt⟩ := rearranges.exists_build built
      exact ⟨arranged, rebuilt,
        TypeTwo.answersAs builds (Definition.builds_of_build rebuilt) rearranges⟩
    · obtain ⟨fuzzified, graded⟩ := System.exists_fuzzify (System.ranged_of_builds builds) fits
      exact ⟨fuzzified, graded, lower.activatedBy .lower builds fits graded,
        upper.activatedBy .upper builds fits graded⟩

end Evaluation

/-! ## A description and its reverse -/

section Reverse

/-- Two inputs that have to be high together. -/
def meetingRules : List Rule :=
  [.ofPairs [("signal", "HIGH"), ("trend", "HIGH")] "HIGH", .ofPairs [("signal", "LOW")] "LOW",
    .ofPairs [("trend", "LOW")] "LOW"]

/-- The same rules in reverse order, with a clause and a rule written twice. -/
def reversedRules : List Rule :=
  [.ofPairs [("trend", "LOW")] "LOW", .ofPairs [("signal", "LOW")] "LOW",
    .ofPairs [("trend", "HIGH"), ("signal", "HIGH"), ("trend", "HIGH")] "HIGH",
    .ofPairs [("trend", "LOW")] "LOW"]

variable {μ : Type} (shape : Float → Float → Float → μ)

/-- A variable over the unit interval with a low and a high term. -/
def levels (name : String) (order : List (Term μ) → List (Term μ)) : Variable Float μ :=
  ⟨name, ⟨0, 1, 3⟩, order [⟨"LOW", shape 0 0 1⟩, ⟨"HIGH", shape 0 1 1⟩]⟩

/-- A description over two inputs. -/
def meeting : Definition Float μ where
  inputs := [levels shape "signal" id, levels shape "trend" id]
  output := levels shape "score" id
  rules := meetingRules

/-- The same with everything in reverse order. -/
def meetingReversed : Definition Float μ where
  inputs := [levels shape "trend" List.reverse, levels shape "signal" List.reverse]
  output := levels shape "score" List.reverse
  rules := reversedRules

theorem levels_rearranges (name : String) :
    (levels shape name id).Rearranges (levels shape name List.reverse) :=
  ⟨rfl, rfl, (List.reverse_perm _).symm⟩

theorem meeting_rearranges : (meeting shape).Rearranges (meetingReversed shape) where
  inputs := ⟨[levels shape "trend" id, levels shape "signal" id], .swap _ _ _,
    .cons (levels_rearranges shape _) (.cons (levels_rearranges shape _) .nil)⟩
  output := levels_rearranges shape _
  rules := by
    change ∀ rule ∈ meetingRules, ∃ copy ∈ reversedRules, rule.Rearranges copy
    decide
  originals := by
    change ∀ copy ∈ reversedRules, ∃ rule ∈ meetingRules, rule.Rearranges copy
    decide

/-- The two inputs change places with their values. -/
theorem meeting_carries {system arranged : System Float μ}
    (inputs : system.inputs = (meeting shape).inputs)
    (others : arranged.inputs = (meetingReversed shape).inputs) (signal trend : Float) :
    system.Carries arranged [signal, trend] [trend, signal] where
  length := rfl
  readings _ := by
    rw [inputs, others]
    exact ⟨[(levels shape "trend" id, trend), (levels shape "signal" id, signal)], .swap _ _ _,
      .cons ⟨levels_rearranges shape _, rfl⟩ (.cons ⟨levels_rearranges shape _, rfl⟩ .nil)⟩

end Reverse

/-- A triangle that may be as wide as its feet. -/
def vague (left peak right : Float) : Footprint Float :=
  ⟨.triangular left peak right, .trapezoidal left left right right⟩

theorem arrangement_immaterial_meeting :
    (∃ system arranged, (meeting Membership.triangular).build = .ok system ∧
      (meetingReversed Membership.triangular).build = .ok arranged ∧
      TypeOne.evaluate arranged [0.5, 0.75] = TypeOne.evaluate system [0.75, 0.5] ∧
      ∃ fuzzified, system.fuzzify [0.75, 0.5] = .ok fuzzified ∧
        system.ActivatedBy [0.75, 0.5] id (TypeOne.activate system fuzzified)) ∧
    ∃ system arranged, (meeting vague).build = .ok system ∧
      (meetingReversed vague).build = .ok arranged ∧
      TypeTwo.evaluate arranged [0.5, 0.75] = TypeTwo.evaluate system [0.75, 0.5] ∧
      ∃ fuzzified, system.fuzzify [0.75, 0.5] = .ok fuzzified ∧
        system.ActivatedBy [0.75, 0.5] Interval.lower
          (TypeTwo.activate system fuzzified).lower := by
  constructor
  · have compared : (meeting Membership.triangular).build.toOption.any (fun system =>
        system.Compares [0.75, 0.5] id) = true := by
      decide +kernel
    obtain ⟨system, built, compares⟩ := exists_of_any_toOption compared
    have compares := of_decide_eq_true compares
    have inputs := (Definition.builds_of_build built).inputs
    obtain ⟨rearranged, activated⟩ := (arrangement_immaterial (α := Float)).1 built
    obtain ⟨arranged, rebuilt, answersAs⟩ := rearranged _ (meeting_rearranges _)
    have carries := meeting_carries _ inputs (Definition.builds_of_build rebuilt).inputs 0.75 0.5
    have fits := (congrArg List.length inputs).symm
    exact ⟨system, arranged, built, rebuilt,
      answersAs.answers carries (List.forall_mem_singleton.mpr compares),
      activated _ fits compares⟩
  · have compared : (meeting vague).build.toOption.any (fun system =>
        system.Compares [0.75, 0.5] Interval.lower ∧
          system.Compares [0.75, 0.5] Interval.upper) = true := by
      decide +kernel
    obtain ⟨system, built, compares⟩ := exists_of_any_toOption compared
    obtain ⟨lower, upper⟩ := of_decide_eq_true compares
    have inputs := (Definition.builds_of_build built).inputs
    obtain ⟨rearranged, activated⟩ := (arrangement_immaterial (α := Float)).2 built
    obtain ⟨arranged, rebuilt, answersAs⟩ := rearranged _ (meeting_rearranges _)
    have carries := meeting_carries _ inputs (Definition.builds_of_build rebuilt).inputs 0.75 0.5
    have fits := (congrArg List.length inputs).symm
    obtain ⟨fuzzified, graded, active, _⟩ := activated _ fits lower upper
    exact ⟨system, arranged, built, rebuilt,
      answersAs.answers carries (List.forall_mem_cons.mpr
        ⟨lower, List.forall_mem_singleton.mpr upper⟩), fuzzified, graded, active⟩

end Handover.Fuzzy
