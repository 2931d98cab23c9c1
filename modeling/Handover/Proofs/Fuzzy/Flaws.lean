import Handover.Fuzzy.TypeTwo
import Handover.Proofs.Fuzzy.Naming
import Handover.Proofs.Report

/-!
# What is wrong with a description

Everything that is wrong with the description of a system is listed in order: first the
input variables, then the output, then names that two inputs share, then the rules.  Each
condition is looked at by itself, whether or not the others hold.  Building reports the
first entry of the list.
-/

namespace Handover.Fuzzy

open Scalar

variable {α : Type} [Scalar α]

/-! ## Shapes -/

namespace Membership

def bellFlaws (mean sigma top : α) : List ShapeFault :=
  faultUnless (isFinite mean) .infiniteMean ++
    (faultUnless (isFinite sigma ∧ 0 < sigma) .badSigma ++
      faultUnless (0 < top ∧ top ≤ 1) .badHeight)

/-- What is wrong with the parameters of a shape. -/
def flaws : Membership α → List ShapeFault
  | gaussian mean sigma top => bellFlaws mean sigma top
  | lowShoulder mean sigma top => bellFlaws mean sigma top
  | highShoulder mean sigma top => bellFlaws mean sigma top
  | triangular left peak right =>
    faultUnless (isFinite left ∧ isFinite peak ∧ isFinite right) .infiniteVertex ++
      faultUnless (left ≤ peak ∧ peak ≤ right ∧ left < right) .unorderedTriangle
  | trapezoidal left leftTop rightTop right =>
    faultUnless (isFinite left ∧ isFinite leftTop ∧ isFinite rightTop ∧ isFinite right)
        .infiniteVertex ++
      faultUnless (left ≤ leftTop ∧ leftTop ≤ rightTop ∧ rightTop ≤ right) .unorderedTrapezoid

/-- Parameters that describe a shape. -/
def WellFormed : Membership α → Prop
  | gaussian mean sigma top | lowShoulder mean sigma top | highShoulder mean sigma top =>
    isFinite mean ∧ (isFinite sigma ∧ 0 < sigma) ∧ 0 < top ∧ top ≤ 1
  | triangular left peak right =>
    (isFinite left ∧ isFinite peak ∧ isFinite right) ∧ left ≤ peak ∧ peak ≤ right ∧ left < right
  | trapezoidal left leftTop rightTop right =>
    (isFinite left ∧ isFinite leftTop ∧ isFinite rightTop ∧ isFinite right) ∧
      left ≤ leftTop ∧ leftTop ≤ rightTop ∧ rightTop ≤ right

theorem flaws_eq_nil {shape : Membership α} : shape.flaws = [] ↔ shape.WellFormed := by
  cases shape <;> simp [flaws, bellFlaws, WellFormed]

theorem checkBell_reports (mean sigma top : α) :
    Reports (checkBell mean sigma top) (bellFlaws mean sigma top) := by
  apply Reports.guard (by simp)
  intro _
  apply Reports.guard Iff.rfl
  intro _
  exact .check Iff.rfl

theorem check_reports (shape : Membership α) : Reports shape.check shape.flaws := by
  cases shape with
  | gaussian mean sigma top => exact checkBell_reports mean sigma top
  | lowShoulder mean sigma top => exact checkBell_reports mean sigma top
  | highShoulder mean sigma top => exact checkBell_reports mean sigma top
  | triangular left peak right => exact .guard Iff.rfl fun _ => .check Iff.rfl
  | trapezoidal left leftTop rightTop right => exact .guard Iff.rfl fun _ => .check Iff.rfl

end Membership

/-! ## Memberships of terms -/

/-- What is wrong with the membership of a named term of a type-1 variable. -/
def Membership.flawsIn (term : String) (_ : Domain α) (shape : Membership α) :
    List (FuzzyError α) :=
  shape.flaws.map (.invalidMembership term)

theorem Membership.validate_reports (term : String) (domain : Domain α) (shape : Membership α) :
    Reports (shape.validate term) (shape.flawsIn term domain) := by
  apply shape.check_reports.relabel
  · rintro ⟨⟩ passed
    exact ⟨(), Membership.validate_of_check passed⟩
  · intro fault failed
    rw [validate, failed]

namespace Footprint

/-- The lower degree exceeds the upper one at most by the tolerance, as far as both sides
are numbers. -/
def OrderedAt (footprint : Footprint α) (x : α) : Prop :=
  let degrees := footprint.degree x
  isNaN degrees.lower = false → isNaN (degrees.upper + tolerance) = false →
    degrees.lower ≤ degrees.upper + tolerance

instance (footprint : Footprint α) (x : α) : Decidable (footprint.OrderedAt x) :=
  inferInstanceAs (Decidable (_ → _ → _))

/-- What is wrong with the membership of a named term of a type-2 variable. -/
def flawsIn (term : String) (domain : Domain α) (footprint : Footprint α) :
    List (FuzzyError α) :=
  footprint.lower.flawsIn term domain ++
    (footprint.upper.flawsIn term domain ++
      (domain.samples.filter fun x => ¬footprint.OrderedAt x).map (.invertedFootprint term))

theorem invertedAt_iff [LawfulOrder α] (footprint : Footprint α) (x : α) :
    footprint.InvertedAt x ↔ ¬footprint.OrderedAt x := by
  rw [InvertedAt, OrderedAt]
  constructor
  · intro inverted ordered
    obtain ⟨upper, lower⟩ := LawfulOrder.numbers_of_lt inverted
    exact (LawfulOrder.le_iff.mp (ordered lower upper)).2.2 inverted
  · intro crossed
    by_contra level
    exact crossed fun lower upper => LawfulOrder.le_iff.mpr ⟨lower, upper, level⟩

theorem validate_reports [LawfulOrder α] (term : String) (domain : Domain α)
    (footprint : Footprint α) :
    Reports (footprint.validate term domain.samples) (footprint.flawsIn term domain) := by
  apply (Membership.validate_reports term domain footprint.lower).bind
  intro _ _
  apply (Membership.validate_reports term domain footprint.upper).bind
  intro _ _
  apply Reports.search List.head?_filter
  · intro x found
    simp only [← invertedAt_iff] at found
    rw [found]
  · intro level
    simp only [← invertedAt_iff] at level
    rw [level]
    exact ⟨(), rfl⟩

end Footprint

/-! ## Variables -/

/-- What is wrong with a range. -/
def Domain.flaws (domain : Domain α) : List DomainFault :=
  faultUnless (isFinite domain.min ∧ isFinite domain.max) .infiniteBounds ++
    (faultUnless (domain.min < domain.max) .emptyRange ++
      faultUnless (2 ≤ domain.points) .tooFewPoints)

/-- The names that stand among `seen` or further left. -/
def repeats (seen : List String) : List String → List String
  | [] => []
  | name :: rest => faultUnless (name ∉ seen) name ++ repeats (name :: seen) rest

theorem head?_repeats (seen names : List String) :
    (repeats seen names).head? = firstRepeat? seen names := by
  induction names generalizing seen with
  | nil => rfl
  | cons name rest ih =>
      rw [repeats, firstRepeat?, faultUnless, ite_not]
      split_ifs with known
      · rfl
      · exact ih (name :: seen)

theorem repeats_eq_nil {names : List String} : repeats [] names = [] ↔ names.Nodup := by
  rw [← List.head?_eq_none_iff, head?_repeats, unique_iff_nodup]

omit [Scalar α] in
theorem checkUnique_reports (names : List String) :
    Reports (checkUnique names : Except (FuzzyError α) Unit)
      ((repeats [] names).map .duplicate) := by
  apply Reports.search (head?_repeats [] names)
  · intro name found
    rw [checkUnique, found]
  · intro unique
    exact ⟨(), checkUnique_of_firstRepeat? unique⟩

section Order

variable [LawfulOrder α] [FiniteOrder α]

theorem Domain.check_reports (domain : Domain α) : Reports domain.check domain.flaws := by
  apply Reports.guard Iff.rfl
  rintro ⟨min, max⟩
  apply Reports.guard (le_iff_of_isFinite max min)
  intro _
  exact .check UInt64.not_le.symm

theorem Domain.validate_reports (name : String) (domain : Domain α) :
    Reports (domain.validate name) (domain.flaws.map (.invalidDomain name)) := by
  apply domain.check_reports.relabel
  · rintro ⟨⟩ passed
    exact ⟨(), by rw [validate, passed]⟩
  · intro fault failed
    rw [validate, failed]

end Order

section Definitions

variable {μ : Type} (flawsOf : String → Domain α → μ → List (FuzzyError α))

/-- What is wrong with a variable, if `flawsOf` tells what is wrong with the membership of
a named term. -/
def Variable.flaws (item : Variable α μ) : List (FuzzyError α) :=
  item.domain.flaws.map (.invalidDomain item.name) ++
    (faultUnless (item.terms ≠ []) (.noTerms item.name) ++
      ((repeats [] (item.terms.map Term.name)).map .duplicate ++
        item.terms.flatMap fun term => flawsOf term.name item.domain term.membership))

/-- What is wrong with a condition of the rule with number `number`. -/
def Clause.flaws (inputs : List (Variable α μ)) (number : Nat) (clause : Clause) :
    List (FuzzyError α) :=
  match inputs.find? fun input => input.name == clause.variableName with
  | none => [.unknownVariable number clause.variableName]
  | some input =>
    faultUnless (∃ term ∈ input.terms, term.name = clause.term)
      (.unknownTerm number clause.variableName clause.term)

/-- What is wrong with the rule with number `number`. -/
def Rule.flaws (inputs : List (Variable α μ)) (output : Variable α μ) (number : Nat)
    (rule : Rule) : List (FuzzyError α) :=
  faultUnless (rule.antecedents ≠ []) (.emptyAntecedent number) ++
    (rule.antecedents.flatMap (Clause.flaws inputs number) ++
      faultUnless (∃ term ∈ output.terms, term.name = rule.consequent)
        (.unknownTerm number output.name rule.consequent))

/-- What is wrong with a description. -/
def Definition.flaws (definition : Definition α μ) : List (FuzzyError α) :=
  definition.inputs.flatMap (Variable.flaws flawsOf) ++
    (definition.output.flaws flawsOf ++
      ((repeats [] (definition.inputs.map Variable.name)).map .duplicate ++
        (faultUnless (definition.rules ≠ []) .emptyRuleBase ++
          definition.rules.zipIdx.flatMap fun numbered =>
            numbered.1.flaws definition.inputs definition.output numbered.2)))

end Definitions

section Reports

variable {μ δ : Type} [Grading μ α δ]
  {flawsOf : String → Domain α → μ → List (FuzzyError α)}

theorem Variable.validate_reports [LawfulOrder α] [FiniteOrder α]
    (graded : ∀ term domain membership,
      Reports (Grading.validate term domain membership) (flawsOf term domain membership))
    (item : Variable α μ) : Reports item.validate (item.flaws flawsOf) := by
  apply (Domain.validate_reports item.name item.domain).bind
  intro _ _
  apply Reports.guard (List.isEmpty_iff.trans not_not.symm)
  intro _
  apply (checkUnique_reports _).bind
  intro _ _
  exact .forM fun term _ => graded term.name item.domain term.membership

omit [Scalar α] in
theorem Clause.index_reports (inputs : List (Variable α μ)) (number : Nat) (clause : Clause) :
    Reports (clause.index inputs number) (clause.flaws inputs number) := by
  have here : (inputs.find? fun input => input.name == clause.variableName) =
      (inputIndex? inputs clause.variableName).bind fun place => inputs[place]? :=
    List.find?_eq_bind_findIdx?_getElem?
  rw [index, flaws, here]
  cases found : inputIndex? inputs clause.variableName with
  | none => rfl
  | some place =>
      obtain ⟨bound, _⟩ := List.findIdx?_eq_some_iff_getElem.mp found
      simp only [Option.bind_some, List.getElem?_eq_getElem bound]
      apply Reports.lookup (inputs[place].exists_termIndex?_iff clause.term)
      · intro term known
        rw [known]
        exact ⟨_, rfl⟩
      · intro missing
        rw [missing]

omit [Scalar α] in
theorem Rule.index_reports (inputs : List (Variable α μ)) (output : Variable α μ) (number : Nat)
    (rule : Rule) : Reports (rule.index inputs output number) (rule.flaws inputs output number) := by
  apply Reports.guard (List.isEmpty_iff.trans not_not.symm)
  intro _
  apply (Reports.mapM fun clause _ => clause.index_reports inputs number).bind
  intro places _
  apply Reports.lookup (output.exists_termIndex?_iff rule.consequent)
  · intro consequent known
    rw [known]
    exact ⟨_, rfl⟩
  · intro missing
    rw [missing]

omit [Scalar α] in
theorem indexRules_reports (inputs : List (Variable α μ)) (output : Variable α μ) (number : Nat)
    (rules : List Rule) :
    Reports (indexRules inputs output number rules)
      ((rules.zipIdx number).flatMap fun numbered =>
        numbered.1.flaws inputs output numbered.2) := by
  induction rules generalizing number with
  | nil => exact .ok []
  | cons rule rest ih =>
      rw [indexRules, List.zipIdx_cons, List.flatMap_cons]
      apply (rule.index_reports inputs output number).bind
      intro first _
      exact (ih (number + 1)).finish _

/-- Building reports the first thing that is wrong. -/
theorem Definition.build_reports [LawfulOrder α] [FiniteOrder α]
    (graded : ∀ term domain membership,
      Reports (Grading.validate term domain membership) (flawsOf term domain membership))
    (definition : Definition α μ) : Reports definition.build (definition.flaws flawsOf) := by
  apply (Reports.forM fun input _ => Variable.validate_reports graded input).bind
  intro _ _
  apply (Variable.validate_reports graded definition.output).bind
  intro _ _
  apply (checkUnique_reports _).bind
  intro _ _
  apply Reports.guard (List.isEmpty_iff.trans not_not.symm)
  intro _
  exact (indexRules_reports _ _ 0 _).finish _

end Reports

end Handover.Fuzzy
