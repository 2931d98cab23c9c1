import Handover.Proofs.Fuzzy.Guarded

/-!
# Built systems evaluate safely

Building looks up every name, so that the places in a built system are places of terms, and
its ranges are in order.  With that, no guard of an evaluation fails, whatever values it is
given, but one: nothing that building checks keeps the sample points of the output few enough
to hold them.  Where they are, the evaluation with guards comes to the same answer as the one
without.  The answer is a value, the complaint about a wrong number of values, or that the
output is empty.
-/

namespace Handover.Fuzzy

open Scalar

variable {α μ δ : Type} [Scalar α] [Grading μ α δ]

/-! ## What building provides -/

/-- What the steps of an evaluation take for granted of a system. -/
structure System.Sound (system : System α μ) : Prop where
  ranges : ∀ input ∈ system.inputs, isNaN input.domain.min = false ∧
    isNaN input.domain.max = false ∧ input.domain.min < input.domain.max
  antecedents : ∀ rule ∈ system.indexed, ∀ place ∈ rule.antecedents, ∃ input,
    system.inputs[place.1]? = some input ∧ place.2 < input.terms.length
  consequents : ∀ rule ∈ system.indexed, rule.consequent < system.output.terms.length

theorem Definition.Builds.sound [LawfulOrder α] [FiniteOrder α] {definition : Definition α μ}
    {system : System α μ} (builds : definition.Builds system) : system.Sound := by
  have origin {rule : IndexedRule} (member : rule ∈ system.indexed) :
      ∃ source number, Rule.index definition.inputs definition.output number source = .ok rule := by
    obtain ⟨source, _, number, indexed⟩ :=
      exists_left_of_forall₂ (forall₂_of_indexRules builds.indexed) member
    exact ⟨source, number, indexed⟩
  constructor
  case ranges =>
    intro input member
    rw [builds.inputs] at member
    obtain ⟨min, max, spans⟩ := Domain.finite_of_check (builds.validInputs input member).domain
    rw [le_iff_of_isFinite max min, not_not] at spans
    exact ⟨isNaN_of_isFinite min, isNaN_of_isFinite max, spans⟩
  case antecedents =>
    intro rule member place listed
    obtain ⟨source, number, indexed⟩ := origin member
    obtain ⟨_, places, _⟩ := Rule.index_eq_ok_iff.mp indexed
    obtain ⟨clause, _, found⟩ := exists_left_of_forall₂ places listed
    obtain ⟨input, present, known⟩ :=
      Option.bind_eq_some_iff.mp (Clause.index_eq_ok_iff.mp found).2
    obtain ⟨bound, _⟩ := List.findIdx?_eq_some_iff_getElem.mp known
    rw [builds.inputs]
    exact ⟨input, present, bound⟩
  case consequents =>
    intro rule member
    obtain ⟨source, number, indexed⟩ := origin member
    obtain ⟨_, _, known⟩ := Rule.index_eq_ok_iff.mp indexed
    obtain ⟨bound, _⟩ := List.findIdx?_eq_some_iff_getElem.mp known
    rw [builds.output]
    exact bound

/-! ## Guards -/

section Guards

variable [LawfulOrder α] {system : System α μ}

theorem exists_guardedFuzzify {pairs : List (Variable α μ × α)}
    (ordered : ∀ pair ∈ pairs, pair.1.domain.min < pair.1.domain.max) :
    ∃ degrees, (pairs.mapM fun pair => pair.1.guardedFuzzify pair.2) = .ok degrees ∧
      System.fuzzifyAll pairs = .ok degrees := by
  induction pairs with
  | nil => exact ⟨[], rfl, rfl⟩
  | cons pair rest ih =>
      obtain ⟨first, others⟩ := List.forall_mem_cons.mp ordered
      obtain ⟨degrees, guarded, graded⟩ := Variable.guardedFuzzify_eq first pair.2
      obtain ⟨remaining, guardedRest, gradedRest⟩ := ih others
      refine ⟨degrees :: remaining, ?_, ?_⟩
      · rw [List.mapM_cons, bind_of_ok guarded, bind_of_ok guardedRest]
        rfl
      · simp only [System.fuzzifyAll, graded, gradedRest]
        rfl

omit [Scalar α] [LawfulOrder α] in
theorem IndexedRule.Fits.map {fuzzified : List (List δ)} {terms : Nat} {rule : IndexedRule}
    (fits : rule.Fits fuzzified terms) (bound : δ → α) :
    rule.Fits (fuzzified.map (List.map bound)) terms := by
  constructor
  · intro place member
    obtain ⟨degrees, degree, row, column⟩ := fits.antecedents place member
    exact ⟨_, _, by rw [List.getElem?_map, row, Option.map_some],
      by rw [List.getElem?_map, column, Option.map_some]⟩
  · exact fits.consequent

/-- The degrees of one value per input have the places that the rules ask for. -/
theorem System.Sound.fits (sound : system.Sound) {crisp : List α}
    (sized : crisp.length = system.inputs.length) {fuzzified : List (List δ)}
    (graded : fuzzifyAll (system.inputs.zip crisp) = .ok fuzzified) {rule : IndexedRule}
    (member : rule ∈ system.indexed) : rule.Fits fuzzified system.output.terms.length := by
  constructor
  · intro place listed
    obtain ⟨input, present, bound⟩ := sound.antecedents rule member place listed
    obtain ⟨inside, _⟩ := List.getElem?_eq_some_iff.mp present
    have given : (system.inputs.zip crisp)[place.1]? = some (input, crisp[place.1]) :=
      List.getElem?_zip_eq_some.mpr ⟨present, List.getElem?_eq_getElem (sized ▸ inside)⟩
    have ordered := (sound.ranges input (List.mem_of_getElem? present)).2.2
    obtain ⟨moved, _, clamped⟩ := Domain.guardedClamp_eq ordered crisp[place.1]
    refine ⟨input.terms.map fun term => Grading.degree term.membership moved,
      Grading.degree input.terms[place.2].membership moved, ?_, ?_⟩
    · rw [getElem?_fuzzifyAll graded, given, Option.bind_some, Variable.fuzzify?, clamped,
        Option.map_some]
    · rw [List.getElem?_map, List.getElem?_eq_getElem bound, Option.map_some]
  · exact sound.consequents rule member

/-- The guarded steps after the degrees are made only for degrees that fit the rules. -/
theorem System.Sound.guarded_eq (sound : system.Sound) (crisp : List α)
    {guardedAnswer : List (List δ) → Except Breach (Except (FuzzyError α) α)}
    {made : List (List δ) → Option (Except (FuzzyError α) α)}
    (same : ∀ fuzzified : List (List δ),
      (∀ rule ∈ system.indexed, rule.Fits fuzzified system.output.terms.length) →
        guardedAnswer fuzzified = present .crowdedSamples (made fuzzified)) :
    system.guarded crisp guardedAnswer =
      present .crowdedSamples (system.answer? crisp made) := by
  by_cases sized : crisp.length = system.inputs.length
  · obtain ⟨fuzzified, guarded, graded⟩ := exists_guardedFuzzify fun pair member =>
      (sound.ranges pair.1 (List.of_mem_zip member).1).2.2
    rw [System.guarded, if_pos sized, bind_of_ok guarded, answer?, System.fuzzify, if_pos sized,
      graded]
    exact same fuzzified fun rule member => sound.fits sized graded member
  · rw [System.guarded, if_neg sized, answer?, System.fuzzify_misfit sized]
    rfl

end Guards

theorem TypeOne.guardedEvaluate_eq [LawfulOrder α] {system : TypeOneSystem α}
    (sound : system.Sound) (crisp : List α) :
    guardedEvaluate system crisp = present .crowdedSamples (evaluate? system crisp) := by
  apply sound.guarded_eq
  intro fuzzified fits
  rw [bind_of_ok (guardedActivations_eq fits), guardedDefuzzify, Domain.guardedSamples, defuzzify?]
  split_ifs with held
  · rw [present, defuzzify, activate, aggregate]
    dsimp only [bind, Except.bind]
    split_ifs with light
    · rfl
    · rw [guardedDivide, if_neg light]
      rfl
  · rfl

theorem TypeTwo.guardedEvaluate_eq [LawfulOrder α] {system : TypeTwoSystem α}
    (sound : system.Sound) (crisp : List α) :
    guardedEvaluate system crisp = present .crowdedSamples (evaluate? system crisp) := by
  apply sound.guarded_eq
  intro fuzzified fits
  rw [bind_of_ok (guardedActivations_eq fun rule member => (fits rule member).map _),
    bind_of_ok (guardedActivations_eq fun rule member => (fits rule member).map _),
    guardedDefuzzify, Domain.guardedSamples, defuzzify?]
  split_ifs with held
  · rw [present, defuzzify, reduceType, activate]
    dsimp only [bind, Except.bind]
    rw [guardedKarnikMendel?_eq]
    dsimp only
    split
    · next found =>
      rw [found]
    · next missing =>
      rw [missing]
  · rfl

omit [Scalar α] in
theorem TypeOne.holdsSamples_iff {domain : Domain α} :
    domain.HoldsSamples pointSize ↔ domain.points.toNat < 2 ^ 59 := by
  rw [Domain.HoldsSamples, pointSize, UInt64.size]
  omega

omit [Scalar α] in
theorem TypeTwo.holdsSamples_iff {domain : Domain α} :
    domain.HoldsSamples pointSize ↔ domain.points.toNat < 2 ^ 60 := by
  rw [Domain.HoldsSamples, pointSize, UInt64.size]
  omega

/-! ## Answers -/

/-- What a system may answer to some values: a score, that they are too many or too few, or that
the output is empty. -/
structure System.Answers (system : System α μ) (crisp : List α)
    (answer : Except (FuzzyError α) α) : Prop where
  possible : (∃ score, answer = .ok score) ∨
    answer = .error (.inputCount system.inputs.length crisp.length) ∨
      answer = .error (.emptyOutput system.output.name)
  misfit : answer = .error (.inputCount system.inputs.length crisp.length) ↔
    crisp.length ≠ system.inputs.length

theorem System.Sound.answers [LawfulOrder α] {system : System α μ} (sound : system.Sound)
    (crisp : List α) {answer : List (List δ) → Except (FuzzyError α) α}
    (silent : ∀ fuzzified fault, answer fuzzified = .error fault →
      fault = .emptyOutput system.output.name) :
    system.Answers crisp (system.fuzzify crisp >>= answer) := by
  by_cases sized : crisp.length = system.inputs.length
  · obtain ⟨fuzzified, _, graded⟩ := exists_guardedFuzzify fun pair member =>
      (sound.ranges pair.1 (List.of_mem_zip member).1).2.2
    rw [System.fuzzify, if_pos sized, bind_of_ok graded]
    cases answered : answer fuzzified with
    | ok score =>
        constructor
        · exact .inl ⟨score, rfl⟩
        · simp [sized]
    | error fault =>
        cases silent fuzzified fault answered
        constructor
        · exact .inr (.inr rfl)
        · simp [sized]
  · rw [System.fuzzify_misfit sized]
    exact ⟨.inr (.inl rfl), iff_of_true rfl sized⟩

/-- An answer is made unless the output has too many sample points for it. -/
theorem System.Sound.answer?_eq [LawfulOrder α] {system : System α μ} (sound : system.Sound)
    (crisp : List α) (bytes : Nat) (answer : List (List δ) → Except (FuzzyError α) α) :
    (system.answer? crisp fun fuzzified =>
        if system.output.domain.HoldsSamples bytes then some (answer fuzzified) else none) =
      if crisp.length = system.inputs.length → system.output.domain.HoldsSamples bytes then
        some (system.fuzzify crisp >>= answer)
      else none := by
  by_cases sized : crisp.length = system.inputs.length
  · obtain ⟨fuzzified, _, graded⟩ := exists_guardedFuzzify fun pair member =>
      (sound.ranges pair.1 (List.of_mem_zip member).1).2.2
    rw [answer?, System.fuzzify, if_pos sized, graded]
    exact if_congr (imp_iff_right sized).symm rfl rfl
  · rw [answer?, System.fuzzify_misfit sized]
    exact (if_pos fun same => absurd same sized).symm

/-- How an evaluation with guards goes, of a system whose output can have so many sample
points. -/
structure System.Safe (system : System α μ) (limit : Nat) (crisp : List α)
    (guarded : Except Breach (Except (FuzzyError α) α)) (answer : Except (FuzzyError α) α) :
    Prop where
  answers : system.Answers crisp answer
  completes : guarded = .ok answer ↔
    (crisp.length = system.inputs.length → system.output.domain.points.toNat < limit)
  breaks : guarded = .error .crowdedSamples ↔
    crisp.length = system.inputs.length ∧ limit ≤ system.output.domain.points.toNat

omit [Scalar α] in
theorem System.Answers.safe {system : System α μ} {crisp : List α}
    {answer : Except (FuzzyError α) α} (answers : system.Answers crisp answer) {bytes limit : Nat}
    (few : system.output.domain.HoldsSamples bytes ↔ system.output.domain.points.toNat < limit)
    {answer? : Option (Except (FuzzyError α) α)}
    (made : answer? = if crisp.length = system.inputs.length →
      system.output.domain.HoldsSamples bytes then some answer else none) :
    system.Safe limit crisp (present .crowdedSamples answer?) answer := by
  by_cases held : crisp.length = system.inputs.length → system.output.domain.HoldsSamples bytes
  · rw [made, if_pos held]
    rw [few] at held
    refine ⟨answers, iff_of_true rfl held, iff_of_false nofun ?_⟩
    rintro ⟨sized, many⟩
    exact absurd (held sized) (Nat.not_lt.mpr many)
  · rw [made, if_neg held]
    rw [few, Classical.not_imp, Nat.not_lt] at held
    refine ⟨answers, iff_of_false nofun ?_, iff_of_true rfl held⟩
    intro small
    exact absurd (small held.1) (Nat.not_lt.mpr held.2)

/-- Whatever values it is given, a built system comes to an answer without a step that it must
not make, unless there is one value for each input and the sample points of the output are too
many to hold them: from `2 ^ 59` on for a type-1 system, which holds each with its height, and
from `2 ^ 60` on for a type-2 system. -/
theorem evaluates_safely [LawfulOrder α] [FiniteOrder α] :
    (∀ (definition : TypeOneDefinition α) (system : TypeOneSystem α),
      definition.build = .ok system → system.Sound ∧ ∀ crisp : List α,
        system.Safe (2 ^ 59) crisp (TypeOne.guardedEvaluate system crisp)
          (TypeOne.evaluate system crisp)) ∧
    ∀ (definition : TypeTwoDefinition α) (system : TypeTwoSystem α),
      definition.build = .ok system → system.Sound ∧ ∀ crisp : List α,
        system.Safe (2 ^ 60) crisp (TypeTwo.guardedEvaluate system crisp)
          (TypeTwo.evaluate system crisp) := by
  constructor
  · intro definition system built
    have sound := (Definition.builds_of_build built).sound
    refine ⟨sound, fun crisp => ?_⟩
    rw [TypeOne.guardedEvaluate_eq sound]
    have answers : system.Answers crisp (TypeOne.evaluate system crisp) :=
      sound.answers crisp fun _ _ => TypeOne.defuzzify_error
    exact answers.safe TypeOne.holdsSamples_iff (sound.answer?_eq crisp _ _)
  · intro definition system built
    have sound := (Definition.builds_of_build built).sound
    refine ⟨sound, fun crisp => ?_⟩
    rw [TypeTwo.guardedEvaluate_eq sound]
    have answers : system.Answers crisp (TypeTwo.evaluate system crisp) :=
      sound.answers crisp fun _ _ => TypeTwo.defuzzify_error
    exact answers.safe TypeTwo.holdsSamples_iff (sound.answer?_eq crisp _ _)

/-- A low level answers no and a high one yes. -/
def switch (term : Membership Float → μ) : Definition Float μ :=
  let low := term (.triangular 0 0 1)
  let high := term (.triangular 0 1 1)
  { inputs := [⟨"level", ⟨0, 1, 2⟩, [⟨"LOW", low⟩, ⟨"HIGH", high⟩]⟩]
    output := ⟨"trigger", ⟨0, 1, 3⟩, [⟨"NO", low⟩, ⟨"YES", high⟩]⟩
    rules := [.ofPairs [("level", "LOW")] "NO", .ofPairs [("level", "HIGH")] "YES"] }

theorem evaluates_safely_switch :
    (∃ system, (switch id).build = .ok system ∧ system.output.domain.points.toNat < 2 ^ 59 ∧
      TypeOne.guardedEvaluate system [0 / 0] = .ok (TypeOne.evaluate system [0 / 0]) ∧
      (∃ score, TypeOne.evaluate system [0 / 0] = .ok score) ∧
      TypeOne.evaluate system [] = .error (.inputCount 1 0)) ∧
    ∃ system, (switch fun shape => Footprint.mk shape shape).build = .ok system ∧
      system.output.domain.points.toNat < 2 ^ 60 ∧
      TypeTwo.guardedEvaluate system [1 / 0] = .ok (TypeTwo.evaluate system [1 / 0]) ∧
      (∃ score, TypeTwo.evaluate system [1 / 0] = .ok score) ∧
      TypeTwo.evaluate system [0, 1] = .error (.inputCount 1 2) := by
  obtain ⟨typeOne, typeTwo⟩ := evaluates_safely (α := Float)
  have first : (switch id).build.toOption.any (fun system => system.inputs.length = 1 ∧
      system.output.domain.points.toNat < 2 ^ 59 ∧
        (TypeOne.evaluate system [0 / 0]).toOption.any fun _ => true) = true := by
    decide +kernel
  have second : (switch fun shape => Footprint.mk shape shape).build.toOption.any
      (fun system => system.inputs.length = 1 ∧ system.output.domain.points.toNat < 2 ^ 60 ∧
        (TypeTwo.evaluate system [1 / 0]).toOption.any fun _ => true) = true := by
    decide +kernel
  constructor
  · obtain ⟨system, built, first⟩ := exists_of_any_toOption first
    obtain ⟨inputs, few, scored⟩ := of_decide_eq_true first
    obtain ⟨score, scored, _⟩ := exists_of_any_toOption scored
    obtain ⟨_, safe⟩ := typeOne _ system built
    have misfit := (safe []).answers.misfit.mpr (by simp [inputs])
    rw [inputs] at misfit
    exact ⟨system, built, few, (safe _).completes.mpr fun _ => few, ⟨score, scored⟩, misfit⟩
  · obtain ⟨system, built, second⟩ := exists_of_any_toOption second
    obtain ⟨inputs, few, scored⟩ := of_decide_eq_true second
    obtain ⟨score, scored, _⟩ := exists_of_any_toOption scored
    obtain ⟨_, safe⟩ := typeTwo _ system built
    have misfit := (safe [0, 1]).answers.misfit.mpr (by simp [inputs])
    rw [inputs] at misfit
    exact ⟨system, built, few, (safe _).completes.mpr fun _ => few, ⟨score, scored⟩, misfit⟩

/-- A high level answers yes, over as many sample points as there can be. -/
def crowded : TypeOneDefinition Float :=
  let high : Membership Float := .triangular 0 1 1
  { inputs := [⟨"level", ⟨0, 1, 2⟩, [⟨"HIGH", high⟩]⟩]
    output := ⟨"trigger", ⟨0, 1, 18446744073709551615⟩, [⟨"YES", high⟩]⟩
    rules := [.ofPairs [("level", "HIGH")] "YES"] }

theorem crowded_breaks_off :
    ∃ system, crowded.build = .ok system ∧ TypeOne.evaluate? system [0] = none ∧
      TypeOne.guardedEvaluate system [0] = .error .crowdedSamples := by
  have evaluated : crowded.build.toOption.any (fun system =>
      (TypeOne.evaluate? system [0]).isNone) = true := by
    decide +kernel
  obtain ⟨system, built, unanswered⟩ := exists_of_any_toOption evaluated
  rw [Option.isNone_iff_eq_none] at unanswered
  have sound := (Definition.builds_of_build built).sound
  refine ⟨system, built, unanswered, ?_⟩
  rw [TypeOne.guardedEvaluate_eq sound, unanswered]
  rfl

end Handover.Fuzzy
