import Handover.Proofs.Fuzzy.Flaws
import Handover.Proofs.Fuzzy.Profile
import Mathlib.Tactic.MkIffOfInductiveProp

/-!
# Which descriptions are accepted

A description is accepted if nothing is wrong with any part of it, and otherwise the first
thing that is wrong is reported.  On doubles a range may be so wide that its sample points
are not numbers, and where bounds cross at such a point nobody notices.  In exact arithmetic
this does not happen.
-/

namespace Handover.Fuzzy

open Scalar

variable {α μ : Type}

/-! ## Well-formed descriptions -/

section WellFormed

variable [Scalar α]

/-- Finite bounds in order, and two points at least. -/
@[mk_iff]
structure Domain.WellFormed (domain : Domain α) : Prop where
  finite : isFinite domain.min ∧ isFinite domain.max
  ordered : domain.min < domain.max
  sampled : 2 ≤ domain.points

/-- A variable with terms of different names, whose memberships are proper over the range of
the variable. -/
@[mk_iff]
structure Variable.WellFormed (proper : Domain α → μ → Prop) (item : Variable α μ) : Prop where
  domain : item.domain.WellFormed
  nonempty : item.terms ≠ []
  distinct : (item.terms.map Term.name).Nodup
  terms : ∀ term ∈ item.terms, proper item.domain term.membership

/-- A rule with conditions, all of whose names have bearers. -/
@[mk_iff]
structure Rule.WellFormed (inputs : List (Variable α μ)) (output : Variable α μ) (rule : Rule) :
    Prop where
  nonempty : rule.antecedents ≠ []
  clauses : ∀ clause ∈ rule.antecedents, ∃ input ∈ inputs, input.name = clause.variableName ∧
    ∃ term ∈ input.terms, term.name = clause.term
  consequent : ∃ term ∈ output.terms, term.name = rule.consequent

/-- A description all of whose parts are well-formed. -/
@[mk_iff]
structure Definition.WellFormed (proper : Domain α → μ → Prop) (definition : Definition α μ) :
    Prop where
  inputs : ∀ input ∈ definition.inputs, input.WellFormed proper
  output : definition.output.WellFormed proper
  distinct : (definition.inputs.map Variable.name).Nodup
  nonempty : definition.rules ≠ []
  rules : ∀ rule ∈ definition.rules, rule.WellFormed definition.inputs definition.output

/-! ## No flaws -/

theorem Domain.flaws_eq_nil {domain : Domain α} : domain.flaws = [] ↔ domain.WellFormed := by
  simp only [flaws, List.append_eq_nil_iff, faultUnless_eq_nil, wellFormed_iff]

variable {flawsOf : String → Domain α → μ → List (FuzzyError α)} {proper : Domain α → μ → Prop}

theorem Variable.flaws_eq_nil
    (known : ∀ term domain membership,
      flawsOf term domain membership = [] ↔ proper domain membership)
    {item : Variable α μ} : item.flaws flawsOf = [] ↔ item.WellFormed proper := by
  simp only [flaws, List.append_eq_nil_iff, List.map_eq_nil_iff, List.flatMap_eq_nil_iff,
    faultUnless_eq_nil, Domain.flaws_eq_nil, repeats_eq_nil, known, wellFormed_iff]

omit [Scalar α] in
/-- Under different names, the variable that is found is the only one that can be meant. -/
theorem Clause.flaws_eq_nil {inputs : List (Variable α μ)}
    (distinct : (inputs.map Variable.name).Nodup) (number : Nat) {clause : Clause} :
    clause.flaws inputs number = [] ↔ ∃ input ∈ inputs, input.name = clause.variableName ∧
      ∃ term ∈ input.terms, term.name = clause.term := by
  have named (input : Variable α μ) :
      inputs.find? (fun input => input.name == clause.variableName) = some input ↔
        input ∈ inputs ∧ input.name = clause.variableName :=
    find?_eq_some_iff_of_nodup distinct
  rw [flaws]
  cases found : inputs.find? fun input => input.name == clause.variableName with
  | none =>
      apply iff_of_false (List.cons_ne_nil _ _)
      rintro ⟨input, member, same, _⟩
      cases found.symm.trans ((named input).mpr ⟨member, same⟩)
  | some input =>
      obtain ⟨member, same⟩ := (named input).mp found
      rw [faultUnless_eq_nil]
      constructor
      · intro bears
        exact ⟨input, member, same, bears⟩
      · rintro ⟨other, known, equal, bears⟩
        cases found.symm.trans ((named other).mpr ⟨known, equal⟩)
        exact bears

omit [Scalar α] in
theorem Rule.flaws_eq_nil {inputs : List (Variable α μ)} {output : Variable α μ}
    (distinct : (inputs.map Variable.name).Nodup) (number : Nat) {rule : Rule} :
    rule.flaws inputs output number = [] ↔ rule.WellFormed inputs output := by
  simp only [flaws, List.append_eq_nil_iff, List.flatMap_eq_nil_iff, faultUnless_eq_nil,
    Clause.flaws_eq_nil distinct, wellFormed_iff]

theorem Definition.flaws_eq_nil
    (known : ∀ term domain membership,
      flawsOf term domain membership = [] ↔ proper domain membership)
    {definition : Definition α μ} :
    definition.flaws flawsOf = [] ↔ definition.WellFormed proper := by
  simp only [flaws, List.append_eq_nil_iff, List.map_eq_nil_iff, List.flatMap_eq_nil_iff,
    faultUnless_eq_nil, repeats_eq_nil, Variable.flaws_eq_nil known]
  constructor
  · rintro ⟨inputs, output, distinct, nonempty, rules⟩
    refine ⟨inputs, output, distinct, nonempty, fun rule member => ?_⟩
    obtain ⟨number, bound, rfl⟩ := List.mem_iff_getElem.mp member
    apply (Rule.flaws_eq_nil distinct number).mp
    exact rules _ (List.mk_mem_zipIdx_iff_getElem?.mpr (List.getElem?_eq_getElem bound))
  · rintro ⟨inputs, output, distinct, nonempty, rules⟩
    refine ⟨inputs, output, distinct, nonempty, fun numbered member => ?_⟩
    apply (Rule.flaws_eq_nil distinct numbered.2).mpr
    exact rules numbered.1 (List.fst_mem_of_mem_zipIdx member)

theorem Membership.flawsIn_eq_nil (term : String) (domain : Domain α) (shape : Membership α) :
    shape.flawsIn term domain = [] ↔ shape.WellFormed := by
  rw [flawsIn, List.map_eq_nil_iff, flaws_eq_nil]

/-- Bounds that are shapes and do not cross at any sample point, as far as can be told. -/
def Footprint.WellFormed (domain : Domain α) (footprint : Footprint α) : Prop :=
  footprint.lower.WellFormed ∧ footprint.upper.WellFormed ∧
    ∀ x ∈ domain.samples, footprint.OrderedAt x

theorem Footprint.flawsIn_eq_nil (term : String) (domain : Domain α) (footprint : Footprint α) :
    footprint.flawsIn term domain = [] ↔ footprint.WellFormed domain := by
  simp only [flawsIn, List.append_eq_nil_iff, List.map_eq_nil_iff, Membership.flawsIn_eq_nil,
    List.filter_eq_nil_iff, decide_eq_true_eq, not_not, WellFormed]

/-- What is well-formed stays so if less is asked of memberships over well-formed ranges. -/
theorem Definition.WellFormed.imp {weaker : Domain α → μ → Prop} {definition : Definition α μ}
    (implies : ∀ domain membership, domain.WellFormed → proper domain membership →
      weaker domain membership)
    (formed : definition.WellFormed proper) : definition.WellFormed weaker := by
  have each (item : Variable α μ) (itemFormed : item.WellFormed proper) : item.WellFormed weaker :=
    { itemFormed with
      terms := fun term member => implies _ _ itemFormed.domain (itemFormed.terms term member) }
  exact { formed with
    inputs := fun input member => each input (formed.inputs input member)
    output := each _ formed.output }

end WellFormed

/-! ## Exact arithmetic -/

section Exact

open Extended

variable {K : Type} [Field K] [LinearOrder K] [IsStrictOrderedRing K] [FloorSemiring K]
  [Exponential K]

/-- In exact arithmetic the degrees at sample points are numbers. -/
theorem Footprint.orderedAt_iff {domain : Domain (Extended K)} (formed : domain.WellFormed)
    {footprint : Footprint (Extended K)} (lower : footprint.lower.WellFormed)
    (upper : footprint.upper.WellFormed) {x : Extended K} (sampled : x ∈ domain.samples) :
    footprint.OrderedAt x ↔ (footprint.degree x).lower ≤ (footprint.degree x).upper + tolerance := by
  have checkedDomain := domain.check_reports.exists_ok_iff.mpr (Domain.flaws_eq_nil.mpr formed)
  have checkedLower :=
    footprint.lower.check_reports.exists_ok_iff.mpr (Membership.flaws_eq_nil.mpr lower)
  have checkedUpper :=
    footprint.upper.check_reports.exists_ok_iff.mpr (Membership.flaws_eq_nil.mpr upper)
  obtain ⟨n, rfl⟩ := Domain.number_of_mem_samples checkedDomain.choose_spec sampled
  obtain ⟨low, lowest⟩ := Membership.degree_number checkedLower.choose_spec n
  obtain ⟨high, highest⟩ := Membership.degree_number checkedUpper.choose_spec n
  rw [OrderedAt, degree, lowest, highest, tolerance_def, number_add]
  constructor
  · intro ordered
    exact ordered rfl rfl
  · intro ordered _ _
    exact ordered

end Exact

/-! ## Acceptance -/

section Acceptance

variable [Scalar α] [LawfulOrder α] [FiniteOrder α] {K : Type} [Field K] [LinearOrder K]
  [IsStrictOrderedRing K] [FloorSemiring K] [Exponential K]

/-- Exactly the well-formed descriptions are accepted, and of what is wrong with any other the
first thing is reported.  That no bounds cross is decided on the sample points at which both
sides of the comparison are numbers.  Without rounding these are all sample points. -/
theorem built_iff_well_formed :
    (∀ definition : TypeOneDefinition α,
      ((∃ system, definition.build = .ok system) ↔
        definition.WellFormed fun _ shape => shape.WellFormed) ∧
      ∀ fault, definition.build = .error fault ↔
        (definition.flaws Membership.flawsIn).head? = some fault) ∧
    (∀ definition : TypeTwoDefinition α,
      ((∃ system, definition.build = .ok system) ↔
        definition.WellFormed fun domain footprint => footprint.lower.WellFormed ∧
          footprint.upper.WellFormed ∧ ∀ x ∈ domain.samples, footprint.OrderedAt x) ∧
      ∀ fault, definition.build = .error fault ↔
        (definition.flaws Footprint.flawsIn).head? = some fault) ∧
    ∀ definition : TypeTwoDefinition (Extended K),
      (∃ system, definition.build = .ok system) ↔
        definition.WellFormed fun domain footprint => footprint.lower.WellFormed ∧
          footprint.upper.WellFormed ∧ ∀ x ∈ domain.samples,
            (footprint.degree x).lower ≤ (footprint.degree x).upper + Footprint.tolerance := by
  refine ⟨fun definition => ?_, fun definition => ?_, fun definition => ?_⟩
  · have reports := definition.build_reports Membership.validate_reports
    constructor
    · exact reports.exists_ok_iff.trans (Definition.flaws_eq_nil Membership.flawsIn_eq_nil)
    · intro fault
      exact reports.error_iff
  · have reports := definition.build_reports Footprint.validate_reports
    constructor
    · exact reports.exists_ok_iff.trans (Definition.flaws_eq_nil Footprint.flawsIn_eq_nil)
    · intro fault
      exact reports.error_iff
  · have reports := definition.build_reports Footprint.validate_reports
    apply (reports.exists_ok_iff.trans (Definition.flaws_eq_nil Footprint.flawsIn_eq_nil)).trans
    constructor
    · apply Definition.WellFormed.imp
      rintro domain footprint formed ⟨lower, upper, ordered⟩
      exact ⟨lower, upper, fun x sampled =>
        (Footprint.orderedAt_iff formed lower upper sampled).mp (ordered x sampled)⟩
    · apply Definition.WellFormed.imp
      rintro domain footprint formed ⟨lower, upper, ordered⟩
      exact ⟨lower, upper, fun x sampled =>
        (Footprint.orderedAt_iff formed lower upper sampled).mpr (ordered x sampled)⟩

end Acceptance

/-! ## Ranges of doubles -/

/-- Two inputs of one name, a rule without conditions and one with unknown names. -/
def muddled : TypeOneDefinition Float :=
  let unit : Domain Float := ⟨0, 1, 2⟩
  let signal : Variable Float (Membership Float) :=
    ⟨"signal", unit, [⟨"ANY", .trapezoidal 0 0 1 1⟩]⟩
  { inputs := [signal, signal]
    output := { signal with name := "trigger" }
    rules := [.ofPairs [] "ANY", .ofPairs [("noise", "ANY"), ("signal", "NONE")] "NEVER"] }

/-- An output range of a width beyond all doubles.  The bounds of its only term are crossed at
the lower bound of the range. -/
def overwide [Scalar α] : TypeTwoDefinition α :=
  let full : Footprint α := ⟨.trapezoidal 0 0 1 1, .trapezoidal 0 0 1 1⟩
  let least : α := ofInt (-10 ^ 308)
  let most : α := ofInt (10 ^ 308)
  let crossed : Footprint α := ⟨.triangular least least most, .triangular least most most⟩
  { inputs := [⟨"signal", ⟨0, 1, 2⟩, [⟨"ANY", full⟩]⟩]
    output := ⟨"trigger", ⟨least, most, 2⟩, [⟨"YES", crossed⟩]⟩
    rules := [.ofPairs [("signal", "ANY")] "YES"] }

example : muddled.flaws Membership.flawsIn =
    [.duplicate "signal", .emptyAntecedent 0, .unknownVariable 1 "noise",
      .unknownTerm 1 "signal" "NONE", .unknownTerm 1 "trigger" "NEVER"] := by
  rfl

theorem exists_build_overwide : ∃ system, (overwide (α := Float)).build = .ok system := by
  have builds : (overwide (α := Float)).build.toOption.any (fun _ => true) = true := by
    decide +kernel
  obtain ⟨system, built, _⟩ := exists_of_any_toOption builds
  exact ⟨system, built⟩

theorem built_iff_well_formed_overwide :
    muddled.build = .error (.duplicate "signal") ∧
      ((overwide (α := Float)).WellFormed fun domain footprint => footprint.lower.WellFormed ∧
        footprint.upper.WellFormed ∧ ∀ x ∈ domain.samples, footprint.OrderedAt x) ∧
      ¬(overwide (α := Extended ℚ)).WellFormed fun domain footprint =>
        footprint.lower.WellFormed ∧ footprint.upper.WellFormed ∧ ∀ x ∈ domain.samples,
          (footprint.degree x).lower ≤ (footprint.degree x).upper + Footprint.tolerance := by
  obtain ⟨typeOne, typeTwo, unrounded⟩ := built_iff_well_formed (α := Float) (K := ℚ)
  refine ⟨((typeOne muddled).2 _).mpr rfl, (typeTwo overwide).1.mp exists_build_overwide, ?_⟩
  intro formed
  obtain ⟨system, built⟩ := (unrounded overwide).mpr formed
  have refused : (overwide (α := Extended ℚ)).build.toOption.isNone = true := by decide +kernel
  rw [built] at refused
  cases refused

/-- The distance of the sample points is infinite, and so the first one is not a number.  The
description is accepted, although the lower degree is one and the upper degree zero at the lower
bound of the range. -/
theorem overwide_crossing_overlooked :
    (∃ system, (overwide (α := Float)).build = .ok system) ∧
      ∃ term ∈ (overwide (α := Float)).output.terms,
        term.membership.InvertedAt (overwide (α := Float)).output.domain.min ∧
        ∃ x ∈ (overwide (α := Float)).output.domain.samples,
          ¬(term.membership.degree x).lower ≤
            (term.membership.degree x).upper + Footprint.tolerance := by
  refine ⟨exists_build_overwide, _, List.mem_singleton_self _, ?_, ?_⟩
  · decide +kernel
  · exact ⟨_, List.mem_cons_self, by decide +kernel⟩

end Handover.Fuzzy
