import Handover.Proofs.Fuzzy.Failure
import Handover.Proofs.Lookup

/-!
# Rules by name

A system runs its rules by place.  What it answers can be told by name: a clause has the
degree of the value of the variable with its name in the term with its name, a rule is as
strong as its weakest clause, and a term of the output as its strongest rule.  So it does
not matter in which order the input variables are listed, as long as every variable keeps
its value.
-/

namespace Handover.Fuzzy

open Scalar

/-! ## Unique names -/

theorem firstRepeat?_eq_none_iff {seen names : List String} :
    firstRepeat? seen names = none ↔ names.Nodup ∧ ∀ name ∈ names, name ∉ seen := by
  induction names generalizing seen with
  | nil => exact iff_of_true rfl ⟨List.nodup_nil, nofun⟩
  | cons name rest ih =>
      rw [firstRepeat?, List.nodup_cons, List.forall_mem_cons]
      split_ifs with known
      · exact iff_of_false nofun fun unique => unique.2.1 known
      · rw [ih]
        constructor
        · rintro ⟨distinct, fresh⟩
          simp only [List.mem_cons, not_or] at fresh
          exact ⟨⟨fun again => (fresh name again).1 rfl, distinct⟩, known,
            fun other member => (fresh other member).2⟩
        · rintro ⟨⟨once, distinct⟩, _, fresh⟩
          refine ⟨distinct, fun other member repeated => ?_⟩
          rcases List.mem_cons.mp repeated with rfl | earlier
          · exact once member
          · exact fresh other member earlier

theorem unique_iff_nodup {names : List String} : firstRepeat? [] names = none ↔ names.Nodup := by
  rw [firstRepeat?_eq_none_iff]
  exact and_iff_left fun _ _ => List.not_mem_nil

variable {α μ δ : Type}

/-! ## Clauses -/

/-- The term that a clause names. -/
def Clause.term? (inputs : List (Variable α μ)) (clause : Clause) : Option (Term μ) :=
  (inputs.find? fun input => input.name == clause.variableName).bind fun input =>
    input.terms.find? fun term => term.name == clause.term

theorem Clause.index_eq_ok_iff {inputs : List (Variable α μ)} {number : Nat} {clause : Clause}
    {place : Nat × Nat} :
    clause.index inputs number = .ok place ↔
      inputIndex? inputs clause.variableName = some place.1 ∧
        (inputs[place.1]?.bind fun input => input.termIndex? clause.term) = some place.2 := by
  obtain ⟨first, second⟩ := place
  rw [index]
  cases inputIndex? inputs clause.variableName with
  | none => exact iff_of_false nofun fun found => nomatch found.1
  | some found =>
      dsimp only
      split
      · next term known =>
        simp only [Except.ok.injEq, Prod.mk.injEq, Option.some.injEq]
        constructor
        · rintro ⟨rfl, rfl⟩
          exact ⟨rfl, known⟩
        · rintro ⟨rfl, same⟩
          exact ⟨rfl, Option.some.inj (known.symm.trans same)⟩
      · next missing =>
        refine iff_of_false nofun ?_
        rintro ⟨same, known⟩
        cases same
        cases missing.symm.trans known

/-- A clause has a place if there is a term that it names. -/
theorem Clause.exists_index_iff {inputs : List (Variable α μ)} {number : Nat}
    {clause : Clause} :
    (∃ place, clause.index inputs number = .ok place) ↔ ∃ term, clause.term? inputs = some term := by
  have here : (inputs.find? fun input => input.name == clause.variableName) =
      (inputIndex? inputs clause.variableName).bind fun place => inputs[place]? :=
    List.find?_eq_bind_findIdx?_getElem?
  have there (input : Variable α μ) : (input.terms.find? fun term => term.name == clause.term) =
      (input.termIndex? clause.term).bind fun place => input.terms[place]? :=
    List.find?_eq_bind_findIdx?_getElem?
  simp only [index_eq_ok_iff, term?, here, there, Option.bind_eq_some_iff]
  constructor
  · rintro ⟨place, found, input, present, known⟩
    obtain ⟨bound, _⟩ := List.findIdx?_eq_some_iff_getElem.mp known
    exact ⟨_, input, ⟨place.1, found, present⟩, place.2, known, List.getElem?_eq_getElem bound⟩
  · rintro ⟨_, input, ⟨first, found, present⟩, second, known, _⟩
    exact ⟨(first, second), found, input, present, known⟩

section Degrees

variable [Scalar α] [Grading μ α δ]

/-- Degree of a clause where variables have values: that of the value in the term that the
clause names, the value being moved into the range first. -/
def Clause.grade? (pairs : List (Variable α μ × α)) (clause : Clause) : Option δ :=
  (pairs.find? fun pair => pair.1.name == clause.variableName).bind fun pair =>
    (pair.1.terms.find? fun term => term.name == clause.term).bind fun term =>
      (pair.1.domain.clamp? pair.2).map (Grading.degree term.membership)

omit [Scalar α] in
/-- Inputs keep their names when they are given values. -/
theorem map_name_zip {inputs : List (Variable α μ)} {crisp : List α}
    (fits : crisp.length = inputs.length) :
    ((inputs.zip crisp).map fun pair => pair.1.name) = inputs.map Variable.name := by
  rw [← List.map_fst_zip fits.ge, List.map_map, List.map_fst_zip fits.ge]
  rfl

theorem degreeAt_eq (missing : δ) (fuzzified : List (List δ)) (place : Nat × Nat) :
    degreeAt missing fuzzified place =
      (fuzzified[place.1]?.bind fun degrees => degrees[place.2]?).getD missing := by
  rw [degreeAt]
  cases fuzzified[place.1]? <;> rfl

namespace System

theorem getElem?_fuzzifyAll {pairs : List (Variable α μ × α)} {fuzzified : List (List δ)}
    (graded : fuzzifyAll pairs = .ok fuzzified) (place : Nat) :
    fuzzified[place]? = pairs[place]?.bind fun pair => pair.1.fuzzify? pair.2 := by
  induction pairs generalizing fuzzified place with
  | nil =>
      cases graded
      rfl
  | cons pair rest ih =>
      rw [fuzzifyAll] at graded
      split at graded
      · cases graded
      · next degrees found =>
        obtain ⟨others, made, graded⟩ := exists_of_bind_eq_ok graded
        cases graded
        cases place with
        | zero => exact found.symm
        | succ place => exact ih made place

/-- The degree at the place of a clause is the degree of the clause. -/
theorem degree_of_index {pairs : List (Variable α μ × α)} {fuzzified : List (List δ)}
    (graded : fuzzifyAll pairs = .ok fuzzified) {number : Nat} {clause : Clause}
    {place : Nat × Nat} (indexed : clause.index (pairs.map Prod.fst) number = .ok place) :
    (fuzzified[place.1]?.bind fun degrees => degrees[place.2]?) = clause.grade? pairs := by
  obtain ⟨here, there⟩ := Clause.index_eq_ok_iff.mp indexed
  rw [List.getElem?_map, Option.bind_map] at there
  obtain ⟨pair, present, there⟩ := Option.bind_eq_some_iff.mp there
  -- The place of a name is that of its first bearer, which a lookup by name finds too.
  have found : (pairs.find? fun pair => pair.1.name == clause.variableName) = some pair := by
    rw [List.find?_eq_bind_findIdx?_getElem?]
    rw [inputIndex?, List.findIdx?_map] at here
    exact (congrArg (Option.bind · _) here).trans present
  have term : (pair.1.terms.find? fun term => term.name == clause.term) =
      pair.1.terms[place.2]? := by
    rw [List.find?_eq_bind_findIdx?_getElem?]
    exact congrArg (Option.bind · _) there
  rw [getElem?_fuzzifyAll graded, present, Clause.grade?, found]
  simp only [Option.bind_some, term, Variable.fuzzify?]
  cases pair.1.domain.clamp? pair.2 with
  | none => cases pair.1.terms[place.2]? <;> rfl
  | some x => simp [Option.map_eq_bind]

end System

end Degrees

/-! ## Rules -/

theorem mapM_eq_ok_iff {ε ρ τ : Type} {f : ρ → Except ε τ} {items : List ρ} {results : List τ} :
    items.mapM f = .ok results ↔
      List.Forall₂ (fun item result => f item = .ok result) items results := by
  induction items generalizing results with
  | nil =>
      rw [List.mapM_nil, List.forall₂_nil_left_iff]
      exact ⟨fun made => (Except.ok.inj made).symm, fun empty => empty ▸ rfl⟩
  | cons item rest ih =>
      rw [List.mapM_cons, List.forall₂_cons_left_iff]
      constructor
      · intro made
        obtain ⟨result, first, made⟩ := exists_of_bind_eq_ok made
        obtain ⟨others, later, made⟩ := exists_of_bind_eq_ok made
        cases made
        exact ⟨result, others, first, ih.mp later, rfl⟩
      · rintro ⟨result, others, first, later, rfl⟩
        rw [bind_of_ok first, bind_of_ok (ih.mpr later)]
        rfl

theorem exists_forall₂_iff {ρ τ : Type} {R : ρ → τ → Prop} {items : List ρ} :
    (∃ results, List.Forall₂ R items results) ↔ ∀ item ∈ items, ∃ result, R item result := by
  induction items with
  | nil => exact iff_of_true ⟨[], .nil⟩ nofun
  | cons item rest ih =>
      rw [List.forall_mem_cons, ← ih]
      constructor
      · rintro ⟨_, here | ⟨here, later⟩⟩
        exact ⟨⟨_, here⟩, _, later⟩
      · rintro ⟨⟨_, here⟩, _, later⟩
        exact ⟨_, .cons here later⟩

/-- In related lists everything on the right has something on the left. -/
theorem exists_left_of_forall₂ {ρ τ : Type} {R : ρ → τ → Prop} {items : List ρ}
    {results : List τ} (related : List.Forall₂ R items results) {result : τ}
    (member : result ∈ results) : ∃ item ∈ items, R item result := by
  obtain ⟨place, bound, rfl⟩ := List.mem_iff_getElem.mp member
  have inside : place < items.length := related.length_eq ▸ bound
  exact ⟨items[place], List.getElem_mem inside, List.Forall₂.get related inside bound⟩

theorem Rule.index_eq_ok_iff {inputs : List (Variable α μ)} {output : Variable α μ}
    {number : Nat} {rule : Rule} {indexed : IndexedRule} :
    rule.index inputs output number = .ok indexed ↔
      rule.antecedents ≠ [] ∧
        List.Forall₂ (fun clause place => Clause.index inputs number clause = .ok place)
          rule.antecedents indexed.antecedents ∧
        output.termIndex? rule.consequent = some indexed.consequent := by
  rw [← mapM_eq_ok_iff, Rule.index]
  cases empty : rule.antecedents.isEmpty with
  | true => exact iff_of_false nofun fun passes => passes.1 (List.isEmpty_iff.mp empty)
  | false =>
      rw [and_iff_right (List.isEmpty_eq_false_iff.mp empty)]
      constructor
      · intro made
        obtain ⟨places, found, made⟩ := exists_of_bind_eq_ok made
        split at made
        · next consequent known =>
          cases made
          exact ⟨found, known⟩
        · cases made
      · rintro ⟨found, known⟩
        refine (bind_of_ok found _).trans ?_
        rw [known]

/-- Every rule is resolved under its number. -/
theorem forall₂_of_indexRules {inputs : List (Variable α μ)} {output : Variable α μ}
    {number : Nat} {rules : List Rule} {indexed : List IndexedRule}
    (resolved : indexRules inputs output number rules = .ok indexed) :
    List.Forall₂ (fun rule result => ∃ number, rule.index inputs output number = .ok result)
      rules indexed := by
  induction rules generalizing number indexed with
  | nil =>
      cases resolved
      exact .nil
  | cons rule rest ih =>
      obtain ⟨first, here, resolved⟩ := exists_of_bind_eq_ok resolved
      obtain ⟨others, later, resolved⟩ := exists_of_bind_eq_ok resolved
      cases resolved
      exact .cons ⟨number, here⟩ (ih later)

/-- A rule whose names all have bearers. -/
structure Rule.Resolves (inputs : List (Variable α μ)) (output : Variable α μ) (rule : Rule) :
    Prop where
  nonempty : rule.antecedents ≠ []
  clauses : ∀ clause ∈ rule.antecedents, ∃ term, clause.term? inputs = some term
  consequent : ∃ term ∈ output.terms, term.name = rule.consequent

/-- A name has a place if a term bears it. -/
theorem Variable.exists_termIndex?_iff (item : Variable α μ) (name : String) :
    (∃ place, item.termIndex? name = some place) ↔ ∃ term ∈ item.terms, term.name = name := by
  rw [← Option.isSome_iff_exists, termIndex?, List.findIdx?_isSome, List.any_eq_true]
  simp only [beq_iff_eq]

theorem Rule.exists_index_iff {inputs : List (Variable α μ)} {output : Variable α μ}
    (number : Nat) {rule : Rule} :
    (∃ indexed, rule.index inputs output number = .ok indexed) ↔ rule.Resolves inputs output := by
  have concludes := output.exists_termIndex?_iff rule.consequent
  simp only [Rule.index_eq_ok_iff]
  constructor
  · rintro ⟨indexed, nonempty, places, known⟩
    have found := exists_forall₂_iff.mp ⟨_, places⟩
    exact ⟨nonempty, fun clause member => Clause.exists_index_iff.mp (found clause member),
      concludes.mp ⟨_, known⟩⟩
  · rintro ⟨nonempty, clauses, consequent⟩
    obtain ⟨place, known⟩ := concludes.mpr consequent
    obtain ⟨places, found⟩ := exists_forall₂_iff.mpr fun clause member =>
      Clause.exists_index_iff.mpr (clauses clause member)
    exact ⟨⟨places, place⟩, nonempty, found, known⟩

/-- Rules are resolved if all their names have bearers. -/
theorem exists_indexRules_iff {inputs : List (Variable α μ)} {output : Variable α μ}
    (number : Nat) {rules : List Rule} :
    (∃ indexed, indexRules inputs output number rules = .ok indexed) ↔
      ∀ rule ∈ rules, rule.Resolves inputs output := by
  induction rules generalizing number with
  | nil => exact iff_of_true ⟨[], rfl⟩ nofun
  | cons rule rest ih =>
      rw [List.forall_mem_cons, ← ih (number + 1), ← Rule.exists_index_iff number]
      constructor
      · rintro ⟨indexed, resolved⟩
        obtain ⟨first, here, resolved⟩ := exists_of_bind_eq_ok resolved
        obtain ⟨others, later, _⟩ := exists_of_bind_eq_ok resolved
        exact ⟨⟨first, here⟩, others, later⟩
      · rintro ⟨⟨first, here⟩, others, later⟩
        exact ⟨first :: others, by rw [indexRules, bind_of_ok here, bind_of_ok later]⟩

section Rules

variable [Scalar α]

/-- A rule is as strong as its weakest clause. -/
def Rule.strength (grade : Clause → α) (rule : Rule) : α :=
  rule.antecedents.foldl (fun weakest clause => lesser weakest (grade clause)) 1

/-- A name is as strong as the strongest rule that concludes it. -/
def strengthOf (grade : Clause → α) (rules : List Rule) (name : String) : α :=
  rules.foldl
    (fun strongest rule =>
      if rule.consequent = name then greater strongest (rule.strength grade) else strongest)
    0

variable {inputs : List (Variable α μ)} {output : Variable α μ} {fuzzified : List (List α)}
  {grade : Clause → α}

/-- The degree at the place of a clause is its grade. -/
def Places (inputs : List (Variable α μ)) (fuzzified : List (List α)) (grade : Clause → α) : Prop :=
  ∀ number clause place, Clause.index inputs number clause = .ok place →
    degreeAt 0 fuzzified place = grade clause

theorem firing_eq_strength (places : Places inputs fuzzified grade) {number : Nat} {rule : Rule}
    {indexed : IndexedRule} (resolved : rule.index inputs output number = .ok indexed) :
    indexed.firing fuzzified = rule.strength grade := by
  obtain ⟨_, found, _⟩ := Rule.index_eq_ok_iff.mp resolved
  refine (List.rel_foldl (P := Eq) (fun _ _ same _ _ here => ?_) rfl found).symm
  rw [same, places number _ _ here]

omit [Scalar α] in
theorem termIndex?_eq_iff (unique : (output.terms.map Term.name).Nodup) {name : String}
    {known place : Nat} (found : output.termIndex? name = some known)
    (bound : place < output.terms.length) : known = place ↔ name = output.terms[place].name := by
  obtain ⟨inside, named, _⟩ := List.findIdx?_eq_some_iff_getElem.mp found
  rw [← beq_iff_eq.mp named]
  have first : known < (output.terms.map Term.name).length := by rwa [List.length_map]
  have second : place < (output.terms.map Term.name).length := by rwa [List.length_map]
  have same : (output.terms.map Term.name)[known] = (output.terms.map Term.name)[place] ↔
    known = place := unique.getElem_inj_iff
  rw [← same, List.getElem_map, List.getElem_map]

theorem activationOf_eq_strengthOf (places : Places inputs fuzzified grade)
    (unique : (output.terms.map Term.name).Nodup) {number : Nat} {rules : List Rule}
    {indexed : List IndexedRule} (resolved : indexRules inputs output number rules = .ok indexed)
    {term : Nat} (bound : term < output.terms.length) :
    activationOf fuzzified indexed term = strengthOf grade rules output.terms[term].name := by
  -- Rule by rule, the same ones conclude the term, and they are equally strong.
  refine (List.rel_foldl (P := Eq) (fun _ _ same rule result here => ?_) rfl
    (forall₂_of_indexRules resolved)).symm
  obtain ⟨_, here⟩ := here
  obtain ⟨_, _, known⟩ := Rule.index_eq_ok_iff.mp here
  rw [same, firing_eq_strength places here]
  exact if_congr (termIndex?_eq_iff unique known bound).symm rfl rfl

/-- The terms of the output are as active as their names are strong. -/
theorem activations_eq_strengths (places : Places inputs fuzzified grade)
    (unique : (output.terms.map Term.name).Nodup) {number : Nat} {rules : List Rule}
    {indexed : List IndexedRule} (resolved : indexRules inputs output number rules = .ok indexed) :
    activations output.terms.length indexed fuzzified =
      output.terms.map fun term => strengthOf grade rules term.name := by
  apply List.ext_getElem
  · rw [activations, List.length_map, List.length_map, List.length_range]
  · intro term _ bound
    rw [List.length_map] at bound
    simp only [activations, List.getElem_map, List.getElem_range]
    exact activationOf_eq_strengthOf places unique resolved bound

/-! ## Answers -/

section Answers

variable {δ : Type} [Grading μ α δ] {definition : Definition α μ} {system : System α μ}

/-- The terms of the output of a built system, as strong as their names. -/
def System.strengths (system : System α μ) (grade : Clause → α) : List α :=
  system.output.terms.map fun term => strengthOf grade system.rules term.name

/-- Grades of clauses under one bound of their degrees.  A clause without a degree counts as
not satisfied. -/
def gradeUnder (bound : δ → α) (pairs : List (Variable α μ × α)) (clause : Clause) : α :=
  ((clause.grade? pairs).map bound).getD 0

theorem Definition.Builds.places (builds : definition.Builds system) {crisp : List α}
    (fits : crisp.length = system.inputs.length) {fuzzified : List (List δ)}
    (graded : system.fuzzify crisp = .ok fuzzified) (bound : δ → α) :
    Places definition.inputs (fuzzified.map (List.map bound))
      (gradeUnder bound (system.inputs.zip crisp)) := by
  intro number clause place indexed
  rw [System.fuzzify, if_pos fits] at graded
  rw [← builds.inputs, ← List.map_fst_zip fits.ge] at indexed
  simp only [gradeUnder, degreeAt_eq, ← System.degree_of_index graded indexed, List.getElem?_map,
    Option.bind_map, Option.map_bind, Function.comp_def]

/-- The degrees activate the terms as strongly as their names. -/
theorem Definition.Builds.activations_eq (builds : definition.Builds system) {crisp : List α}
    (fits : crisp.length = system.inputs.length) {fuzzified : List (List δ)}
    (graded : system.fuzzify crisp = .ok fuzzified) (bound : δ → α) :
    activations system.output.terms.length system.indexed (fuzzified.map (List.map bound)) =
      system.strengths (gradeUnder bound (system.inputs.zip crisp)) := by
  have unique := unique_iff_nodup.mp builds.validOutput.unique
  have resolved := builds.indexed
  rw [← builds.output] at unique resolved
  rw [← builds.rules] at resolved
  exact activations_eq_strengths (builds.places fits graded bound) unique resolved

end Answers

theorem TypeOne.defuzzify_congr {system other : TypeOneSystem α}
    (output : other.output = system.output) (activation : List α) :
    defuzzify other activation = defuzzify system activation := by
  obtain ⟨_, _, _, _⟩ := other
  obtain rfl := output
  rfl

theorem TypeTwo.defuzzify_congr {system other : TypeTwoSystem α}
    (output : other.output = system.output) (activation : IntervalActivation α) :
    defuzzify other activation = defuzzify system activation := by
  obtain ⟨_, _, _, _⟩ := other
  obtain rfl := output
  rfl

section Evaluation

variable [FiniteOrder α] {crisp : List α}

/-- What a type-1 system answers, by name. -/
theorem TypeOne.evaluate_eq {definition : TypeOneDefinition α} {system : TypeOneSystem α}
    (builds : definition.Builds system) :
    evaluate system crisp =
      if crisp.length = system.inputs.length then
        defuzzify system (system.strengths (gradeUnder id (system.inputs.zip crisp)))
      else .error (.inputCount system.inputs.length crisp.length) := by
  split_ifs with fits
  · obtain ⟨fuzzified, graded⟩ := System.exists_fuzzify (System.ranged_of_builds builds) fits
    have active := builds.activations_eq fits graded id
    rw [List.map_id_fun, List.map_id] at active
    rw [evaluate, bind_of_ok graded, activate, active]
  · exact evaluate_misfit fits

/-- What a type-2 system answers, by name. -/
theorem TypeTwo.evaluate_eq {definition : TypeTwoDefinition α} {system : TypeTwoSystem α}
    (builds : definition.Builds system) :
    evaluate system crisp =
      if crisp.length = system.inputs.length then
        defuzzify system
          ⟨system.strengths (gradeUnder Interval.lower (system.inputs.zip crisp)),
            system.strengths (gradeUnder Interval.upper (system.inputs.zip crisp))⟩
      else .error (.inputCount system.inputs.length crisp.length) := by
  split_ifs with fits
  · obtain ⟨fuzzified, graded⟩ := System.exists_fuzzify (System.ranged_of_builds builds) fits
    have lower := builds.activations_eq fits graded Interval.lower
    have upper := builds.activations_eq fits graded Interval.upper
    rw [evaluate, bind_of_ok graded, activate, lower, upper]
  · exact evaluate_misfit fits

end Evaluation

/-! ## Inputs in another order -/

section Order

/-- The same description, with its inputs listed in another order. -/
structure Definition.Relists (definition other : Definition α μ) : Prop where
  inputs : definition.inputs.Perm other.inputs
  output : other.output = definition.output
  rules : other.rules = definition.rules

omit [Scalar α] in
theorem Clause.term?_of_perm {others : List (Variable α μ)} (listed : inputs.Perm others)
    (unique : (inputs.map Variable.name).Nodup) (clause : Clause) :
    clause.term? others = clause.term? inputs := by
  rw [term?, term?, find?_eq_of_perm listed unique]

variable {δ : Type} [Grading μ α δ] {definition other : Definition α μ}
  {system shuffled : System α μ}

/-- A description can be built whatever the order of its inputs. -/
theorem Definition.Relists.exists_build (relists : definition.Relists other)
    (built : definition.build = .ok system) : ∃ shuffled, other.build = .ok shuffled := by
  have builds := builds_of_build built
  obtain ⟨inputs, output, rules⟩ := relists
  have unique := unique_iff_nodup.mp builds.unique
  obtain ⟨indexed, resolved⟩ : ∃ indexed, indexRules other.inputs other.output 0 other.rules =
      .ok indexed := by
    rw [output, rules, exists_indexRules_iff]
    intro rule member
    have resolves := (exists_indexRules_iff 0).mp ⟨_, builds.indexed⟩ rule member
    refine ⟨resolves.nonempty, fun clause named => ?_, resolves.consequent⟩
    rw [Clause.term?_of_perm inputs unique]
    exact resolves.clauses clause named
  refine ⟨_, build_of_valid (fun input member => ?_) (output ▸ builds.validOutput) ?_
    (rules ▸ builds.nonempty) resolved⟩
  · exact builds.validInputs input (inputs.mem_iff.mpr member)
  · exact unique_iff_nodup.mpr ((inputs.map Variable.name).nodup_iff.mp unique)

theorem gradeUnder_of_perm (bound : δ → α) {pairs others : List (Variable α μ × α)}
    (listed : pairs.Perm others) (unique : (pairs.map fun pair => pair.1.name).Nodup) :
    gradeUnder bound others = gradeUnder bound pairs := by
  funext clause
  rw [gradeUnder, gradeUnder, Clause.grade?, Clause.grade?, find?_eq_of_perm listed unique]

/-- A system and one that was built from its description with the inputs listed in another
order, and a list of values for each, in which every variable has the same value. -/
structure SameValues (system shuffled : System α μ) (crisp moved : List α) : Prop where
  output : shuffled.output = system.output
  rules : shuffled.rules = system.rules
  unique : (system.inputs.map Variable.name).Nodup
  inputs : shuffled.inputs.length = system.inputs.length
  length : moved.length = crisp.length
  values : crisp.length = system.inputs.length →
    (system.inputs.zip crisp).Perm (shuffled.inputs.zip moved)

theorem Definition.Relists.sameValues (relists : definition.Relists other)
    (built : definition.build = .ok system) (rebuilt : other.build = .ok shuffled)
    {crisp moved : List α} (length : moved.length = crisp.length)
    (values : crisp.length = system.inputs.length →
      (system.inputs.zip crisp).Perm (shuffled.inputs.zip moved)) :
    SameValues system shuffled crisp moved := by
  have before := builds_of_build built
  have after := builds_of_build rebuilt
  refine ⟨?_, ?_, ?_, ?_, length, values⟩
  · rw [after.output, relists.output, before.output]
  · rw [after.rules, relists.rules, before.rules]
  · rw [before.inputs]
    exact unique_iff_nodup.mp before.unique
  · rw [after.inputs, before.inputs, relists.inputs.length_eq]

namespace SameValues

variable {crisp moved : List α} (same : SameValues system shuffled crisp moved)

include same

theorem strengths (fits : crisp.length = system.inputs.length) (bound : δ → α) :
    shuffled.strengths (gradeUnder bound (shuffled.inputs.zip moved)) =
      system.strengths (gradeUnder bound (system.inputs.zip crisp)) := by
  have grades := gradeUnder_of_perm bound (same.values fits)
    (map_name_zip fits ▸ same.unique)
  rw [System.strengths, System.strengths, same.output, same.rules, grades]

end SameValues

/-- A system answers by the values of its variables, whatever their order. -/
theorem TypeOne.evaluate_shuffled [FiniteOrder α] {definition other : TypeOneDefinition α}
    {system shuffled : TypeOneSystem α} (built : definition.Builds system)
    (rebuilt : other.Builds shuffled) {crisp moved : List α}
    (same : SameValues system shuffled crisp moved) :
    evaluate shuffled moved = evaluate system crisp := by
  rw [evaluate_eq built, evaluate_eq rebuilt, same.length, same.inputs]
  split_ifs with fits
  · rw [same.strengths fits, defuzzify_congr same.output]
  · rfl

theorem TypeTwo.evaluate_shuffled [FiniteOrder α] {definition other : TypeTwoDefinition α}
    {system shuffled : TypeTwoSystem α} (built : definition.Builds system)
    (rebuilt : other.Builds shuffled) {crisp moved : List α}
    (same : SameValues system shuffled crisp moved) :
    evaluate shuffled moved = evaluate system crisp := by
  rw [evaluate_eq built, evaluate_eq rebuilt, same.length, same.inputs]
  split_ifs with fits
  · rw [same.strengths fits, same.strengths fits, defuzzify_congr same.output]
  · rfl

end Order

end Rules

end Handover.Fuzzy
