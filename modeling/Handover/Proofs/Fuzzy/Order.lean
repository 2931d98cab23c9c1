import Handover.Fuzzy.TypeTwo
import Handover.Proofs.Fuzzy.Profile
import Mathlib.Data.List.Forall2

/-!
# Footprints in order

A built type-2 system has checked at every sample point of its variables that the
lower bound of a term does not exceed the upper one by more than a tolerance.  So
the degrees of values that fall on sample points are in order, and the rules keep
the order.  Between sample points nothing is checked, and footprints other than
bells of uncertain width may be inverted there.
-/

namespace Handover.Fuzzy

open Scalar Extended

/-! ## Order up to the tolerance -/

section Tolerance

variable {α : Type} [Scalar α]

/-- The first value exceeds the second one by no more than the tolerance. -/
def AtMost (x y : α) : Prop :=
  x ≤ y + Footprint.tolerance

instance (x y : α) : Decidable (AtMost x y) :=
  inferInstanceAs (Decidable (x ≤ _))

/-- The bounds are not inverted. -/
def Interval.Ordered (interval : Interval α) : Prop :=
  AtMost interval.lower interval.upper

instance (interval : Interval α) : Decidable interval.Ordered :=
  inferInstanceAs (Decidable (AtMost _ _))

/-- No activation is inverted. -/
def IntervalActivation.Ordered (activation : IntervalActivation α) : Prop :=
  List.Forall₂ AtMost activation.lower activation.upper

instance (activation : IntervalActivation α) : Decidable activation.Ordered :=
  inferInstanceAs (Decidable (List.Forall₂ AtMost _ _))

end Tolerance

/-- Two bells around the same mean with the same height, the lower one not wider
than the upper one. -/
inductive Footprint.Nested {α : Type} [Scalar α] : Footprint α → Prop where
  | gaussian (mean top : α) {narrow wide : α} (widens : narrow ≤ wide) :
      Nested ⟨.gaussian mean narrow top, .gaussian mean wide top⟩
  | lowShoulder (mean top : α) {narrow wide : α} (widens : narrow ≤ wide) :
      Nested ⟨.lowShoulder mean narrow top, .lowShoulder mean wide top⟩
  | highShoulder (mean top : α) {narrow wide : α} (widens : narrow ≤ wide) :
      Nested ⟨.highShoulder mean narrow top, .highShoulder mean wide top⟩

variable {K : Type} [Field K] [LinearOrder K] [FloorSemiring K] [Exponential K]
  {x y lower upper : Extended K}

theorem AtMost.numeric (most : AtMost x y) : x ≠ notNumber ∧ y ≠ notNumber := by
  have numeric := ne_notNumber_of_le most
  exact ⟨numeric.1, ne_notNumber_of_add numeric.2⟩

theorem AtMost.lesser (first : AtMost x y) (second : AtMost lower upper) :
    AtMost (lesser x lower) (lesser y upper) := by
  have below := lesser_le first.numeric.1 second.numeric.1
  rcases lesser_eq y upper with ⟨equal, _⟩ | ⟨equal, _⟩
  · rw [equal]
    exact Extended.le_trans below.1 first
  · rw [equal]
    exact Extended.le_trans below.2 second

variable [IsStrictOrderedRing K]

theorem atMost_of_le (le : x ≤ y) : AtMost x y := by
  have positive : (0 : K) ≤ 1 / 10 ^ 9 := by positivity
  rw [AtMost, Footprint.tolerance_def]
  exact Extended.le_trans le (le_add_number (ne_notNumber_of_le le).2 positive)

theorem AtMost.trans_le (most : AtMost x y) {z : Extended K} (le : y ≤ z) : AtMost x z :=
  Extended.le_trans most (add_le_add_number le _)

theorem AtMost.greater (first : AtMost x y) (second : AtMost lower upper) :
    AtMost (greater x lower) (greater y upper) := by
  have above := le_greater first.numeric.2 second.numeric.2
  rcases greater_eq x lower with ⟨equal, _⟩ | ⟨equal, _⟩
  · rw [equal]
    exact first.trans_le above.1
  · rw [equal]
    exact second.trans_le above.2

/-! ## Bells of uncertain width -/

omit [FloorSemiring K] in
theorem bellAt_le_of_wider {mean narrow wide top : K} (nonneg : 0 ≤ top) (positive : 0 < narrow)
    (widens : narrow ≤ wide) (x : K) : bellAt mean narrow top x ≤ bellAt mean wide top x := by
  apply mul_le_mul_of_nonneg_left _ nonneg
  apply exponential_mono
  rw [neg_div, neg_div, neg_le_neg_iff]
  apply div_le_div_of_nonneg_left (mul_self_nonneg _) (by positivity)
  have : 0 < wide := positive.trans_le widens
  gcongr

omit [FloorSemiring K] in
/-- The flank of a wider bell is nowhere lower. -/
theorem flank_le_of_wider {mean narrow wide top : K} (nonneg : 0 ≤ top) (positive : 0 < narrow)
    (widens : narrow ≤ wide) (x : K) : flank mean narrow top x ≤ flank mean wide top x := by
  unfold flank
  split_ifs
  · exact le_rfl
  · exact bellAt_le_of_wider nonneg positive widens x

omit [FloorSemiring K] [Exponential K] [IsStrictOrderedRing K] in
theorem unending_le {height other : K → K} (le : ∀ x, height x ≤ other x) (top : K)
    (x : Extended K) : unending height top x ≤ unending other top x := by
  cases x with
  | number x => exact le x
  | _ => exact le_rfl

namespace Membership

omit [IsStrictOrderedRing K] in
/-- A shape with lower flanks is nowhere higher. -/
theorem Drawn.degree_le {shape other : Membership (Extended K)} {up down rise fall : Extended K → K}
    {first last top start stop peak : K} (below : Drawn shape up down first last top)
    (above : Drawn other rise fall start stop peak) (left : ∀ x, up x ≤ rise x)
    (right : ∀ x, down x ≤ fall x) {x : Extended K} (numeric : x ≠ notNumber) :
    shape.degree x ≤ other.degree x := by
  rw [below.degree_eq numeric, above.degree_eq numeric, number_le]
  exact min_le_min (left x) (right (-x))

omit [IsStrictOrderedRing K] in
theorem numbers_of_checkBells {mean narrow wide top : Extended K}
    (lower : checkBell mean narrow top = .ok ()) (upper : checkBell mean wide top = .ok ())
    (widens : narrow ≤ wide) :
    ∃ m n w t : K, mean = number m ∧ narrow = number n ∧ wide = number w ∧ top = number t ∧
      0 < n ∧ n ≤ w ∧ 0 < t ∧ t ≤ 1 := by
  rcases numbers_of_checkBell lower with ⟨m, n, t, rfl, rfl, rfl, positive, tall, low⟩
  rcases numbers_of_checkBell upper with ⟨_, w, _, _, rfl, _⟩
  exact ⟨m, n, w, t, rfl, rfl, rfl, rfl, positive, (number_le n w).mp widens, tall, low⟩

end Membership

namespace Footprint

open Handover.Fuzzy.Membership

variable {footprint : Footprint (Extended K)}

/-- Bells of uncertain width are in order everywhere. -/
theorem Nested.degree_le (nested : footprint.Nested) (lower : footprint.lower.check = .ok ())
    (upper : footprint.upper.check = .ok ()) {x : Extended K} (numeric : x ≠ notNumber) :
    footprint.lower.degree x ≤ footprint.upper.degree x := by
  cases nested with
  | gaussian mean top widens =>
      rcases numbers_of_checkBells lower upper widens with
        ⟨m, n, w, t, rfl, rfl, rfl, rfl, positive, wider, tall, low⟩
      exact (drawn_gaussian positive tall low).degree_le
        (drawn_gaussian (positive.trans_le wider) tall low)
        (unending_le (flank_le_of_wider tall.le positive wider) t)
        (unending_le (flank_le_of_wider tall.le positive wider) t) numeric
  | lowShoulder mean top widens =>
      rcases numbers_of_checkBells lower upper widens with
        ⟨m, n, w, t, rfl, rfl, rfl, rfl, positive, wider, tall, low⟩
      exact (drawn_lowShoulder positive tall low).degree_le
        (drawn_lowShoulder (positive.trans_le wider) tall low) (fun _ => le_rfl)
        (unending_le (flank_le_of_wider tall.le positive wider) t) numeric
  | highShoulder mean top widens =>
      rcases numbers_of_checkBells lower upper widens with
        ⟨m, n, w, t, rfl, rfl, rfl, rfl, positive, wider, tall, low⟩
      exact (drawn_highShoulder positive tall low).degree_le
        (drawn_highShoulder (positive.trans_le wider) tall low)
        (unending_le (flank_le_of_wider tall.le positive wider) t) (fun _ => le_rfl) numeric

theorem Nested.ordered (nested : footprint.Nested) (lower : footprint.lower.check = .ok ())
    (upper : footprint.upper.check = .ok ()) (x : K) :
    (footprint.degree (number x)).Ordered :=
  atMost_of_le (nested.degree_le lower upper nofun)

/-- Bells of uncertain width are inverted nowhere.  At what is not a number their degrees are no
numbers either, and nothing is below those. -/
theorem Nested.not_inverted (nested : footprint.Nested) (lower : footprint.lower.check = .ok ())
    (upper : footprint.upper.check = .ok ()) (x : Extended K) : ¬footprint.InvertedAt x := by
  by_cases numeric : x = notNumber
  · rw [numeric, InvertedAt, degree, degree_notNumber lower]
    cases (footprint.upper.degree notNumber + tolerance : Extended K) <;> exact Bool.false_ne_true
  · have ordered := atMost_of_le (nested.degree_le lower upper numeric)
    have degrees := ne_notNumber_of_le ordered
    exact (Extended.not_lt degrees.2 degrees.1).mpr ordered

/-- Bells of uncertain width pass their check, whatever the sample points are. -/
theorem Nested.validate (nested : footprint.Nested) (lower : footprint.lower.check = .ok ())
    (upper : footprint.upper.check = .ok ()) (term : String) (samples : List (Extended K)) :
    footprint.validate term samples = .ok () :=
  validate_of_checks lower upper fun x _ => nested.not_inverted lower upper x

end Footprint

/-! ## Rules -/

section Rules

variable {fuzzified : List (List (Interval (Extended K)))}
  (ordered : ∀ degrees ∈ fuzzified, ∀ degree ∈ degrees, degree.Ordered)

include ordered

theorem degreeAt_atMost (place : Nat × Nat) :
    AtMost (degreeAt 0 (fuzzified.map (List.map Interval.lower)) place)
      (degreeAt 0 (fuzzified.map (List.map Interval.upper)) place) := by
  have zero : AtMost (0 : Extended K) 0 := atMost_of_le (Extended.le_refl nofun)
  simp only [degreeAt, List.getElem?_map]
  cases found : fuzzified[place.1]? with
  | none => exact zero
  | some degrees =>
      simp only [Option.map_some, List.getElem?_map]
      cases present : degrees[place.2]? with
      | none => exact zero
      | some degree =>
          exact ordered degrees (List.mem_of_getElem? found) degree (List.mem_of_getElem? present)

theorem firing_atMost (rule : IndexedRule) :
    AtMost (rule.firing (fuzzified.map (List.map Interval.lower)))
      (rule.firing (fuzzified.map (List.map Interval.upper))) := by
  unfold IndexedRule.firing
  induction rule.antecedents using List.reverseRecOn with
  | nil => exact atMost_of_le (Extended.le_refl nofun)
  | append_singleton places place ih =>
      rw [List.foldl_append, List.foldl_append]
      exact ih.lesser (degreeAt_atMost ordered place)

theorem activationOf_atMost (rules : List IndexedRule) (term : Nat) :
    AtMost (activationOf (fuzzified.map (List.map Interval.lower)) rules term)
      (activationOf (fuzzified.map (List.map Interval.upper)) rules term) := by
  unfold activationOf
  induction rules using List.reverseRecOn with
  | nil => exact atMost_of_le (Extended.le_refl nofun)
  | append_singleton rules rule ih =>
      rw [List.foldl_append, List.foldl_append]
      simp only [List.foldl_cons, List.foldl_nil]
      split
      · exact ih.greater (firing_atMost ordered rule)
      · exact ih

/-- Degrees in order activate the terms of the output in order. -/
theorem TypeTwo.activate_ordered (system : TypeTwoSystem (Extended K)) :
    (activate system fuzzified).Ordered := by
  apply List.forall₂_map_left_iff.mpr
  apply List.forall₂_map_right_iff.mpr
  exact List.forall₂_same.mpr fun term _ => activationOf_atMost ordered system.indexed term

end Rules

/-! ## Values that are secure -/

/-- Every value falls on a sample point, if it is moved into the range. -/
def Variable.Sampled {α μ : Type} [Scalar α] (item : Variable α μ) (value : α) : Prop :=
  ∀ x, item.domain.clamp? value = some x → x ∈ item.domain.samples

/-- The order of the bounds of a term was checked for a value, or does not depend
on the value. -/
def Variable.Secures {α : Type} [Scalar α] (item : Variable α (Footprint α)) (value : α)
    (term : Term (Footprint α)) : Prop :=
  item.Sampled value ∨ term.membership.Nested

section Values

variable {item : Variable (Extended K) (Footprint (Extended K))}

/-- At a sample point the order of the bounds was checked. -/
theorem Variable.Valid.ordered_of_sample (valid : item.Valid) {term : Term (Footprint (Extended K))}
    (member : term ∈ item.terms) {x : Extended K} (sampled : x ∈ item.domain.samples) :
    (term.membership.degree x).Ordered := by
  rcases Footprint.checks_of_validate (valid.terms term member) with ⟨lower, upper, level⟩
  rcases Domain.number_of_mem_samples valid.domain sampled with ⟨n, rfl⟩
  rcases Membership.degree_number lower n with ⟨low, least⟩
  rcases Membership.degree_number upper n with ⟨high, greatest⟩
  have checked := level _ sampled
  simp only [Footprint.InvertedAt, Footprint.degree, least, greatest, Footprint.tolerance_def,
    number_add, number_lt, not_lt] at checked
  simpa only [Interval.Ordered, AtMost, Footprint.degree, least, greatest, Footprint.tolerance_def,
    number_add, number_le] using checked

theorem Variable.Valid.fuzzify? (valid : item.Valid) (value : Extended K) :
    ∃ degrees, item.fuzzify? value = some degrees ∧
      List.Forall₂ (fun term degree => item.Secures value term → Interval.Ordered degree)
        item.terms degrees := by
  rcases Domain.clamp?_number valid.domain value with ⟨x, clamped, _⟩
  refine ⟨_, by rw [Variable.fuzzify?, clamped, Option.map_some], ?_⟩
  apply List.forall₂_map_right_iff.mpr
  apply List.forall₂_same.mpr
  intro term member secure
  rcases secure with sampled | nested
  · exact valid.ordered_of_sample member (sampled _ clamped)
  · rcases Footprint.checks_of_validate (valid.terms term member) with ⟨lower, upper, _⟩
    exact nested.ordered lower upper x

/-- Values of valid variables have degrees, and they are in order if every one of
them is secured. -/
theorem System.fuzzifyAll_ordered
    {pairs : List (Variable (Extended K) (Footprint (Extended K)) × Extended K)}
    (valid : ∀ pair ∈ pairs, pair.1.Valid) :
    ∃ fuzzified, fuzzifyAll pairs = .ok fuzzified ∧
      ((∀ pair ∈ pairs, ∀ term ∈ pair.1.terms, pair.1.Secures pair.2 term) →
        ∀ degrees ∈ fuzzified, ∀ degree ∈ degrees, degree.Ordered) := by
  induction pairs with
  | nil => exact ⟨[], rfl, fun _ => nofun⟩
  | cons pair rest ih =>
      rw [List.forall_mem_cons] at valid
      rcases ih valid.2 with ⟨others, made, ordered⟩
      rcases valid.1.fuzzify? pair.2 with ⟨degrees, found, related⟩
      refine ⟨degrees :: others, ?_, ?_⟩
      · rw [fuzzifyAll, found, made]
        rfl
      · intro secure
        rw [List.forall_mem_cons] at secure ⊢
        refine ⟨?_, ordered secure.2⟩
        intro degree member
        rcases List.getElem_of_mem member with ⟨index, bound, rfl⟩
        have fits := related.length_eq ▸ bound
        exact related.get fits bound (secure.1 _ (List.getElem_mem fits))

end Values

/-! ## Built systems -/

/-- A built system has degrees for every value.  They are in order at sample
points, on which all values fall that do not lie strictly inside the range, and
everywhere for bells of uncertain width.  If all degrees of its inputs are in
order, so are the activations of its output. -/
theorem TypeTwo.footprints_ordered {definition : TypeTwoDefinition (Extended K)}
    {system : TypeTwoSystem (Extended K)} (built : definition.build = .ok system) :
    (∀ input ∈ system.inputs, ∀ value,
      (∃ degrees, input.fuzzify? value = some degrees ∧
        List.Forall₂ (fun term degree => input.Secures value term → Interval.Ordered degree)
          input.terms degrees) ∧
      (¬(input.domain.min < value ∧ value < input.domain.max) → input.Sampled value)) ∧
    ∀ crisp : List (Extended K), crisp.length = system.inputs.length →
      ∃ fuzzified, system.fuzzify crisp = .ok fuzzified ∧
        ((∀ degrees ∈ fuzzified, ∀ degree ∈ degrees, degree.Ordered) →
          (activate system fuzzified).Ordered) ∧
        ((∀ pair ∈ system.inputs.zip crisp, ∀ term ∈ pair.1.terms,
            pair.1.Secures pair.2 term) →
          ∀ degrees ∈ fuzzified, ∀ degree ∈ degrees, degree.Ordered) := by
  have builds := Definition.builds_of_build built
  have valid : ∀ input ∈ system.inputs, input.Valid := by
    rw [builds.inputs]
    exact builds.validInputs
  constructor
  · intro input member value
    refine ⟨(valid input member).fuzzify? value, ?_⟩
    intro outside x clamped
    rcases Domain.clamp?_number (valid input member).domain value with ⟨n, same, sampled⟩
    cases clamped.symm.trans same
    exact sampled outside
  · intro crisp enough
    have pairs : ∀ pair ∈ system.inputs.zip crisp, pair.1.Valid :=
      fun pair member => valid pair.1 (List.of_mem_zip member).1
    rcases System.fuzzifyAll_ordered pairs with ⟨fuzzified, made, ordered⟩
    refine ⟨fuzzified, ?_, fun inOrder => activate_ordered inOrder system, ordered⟩
    rw [System.fuzzify, if_pos enough, made]

/-- A rule about a term that is inverted between its sample points, and about a
bell of uncertain width. -/
def crossed : TypeTwoDefinition (Extended ℚ) :=
  let unit : Domain (Extended ℚ) := ⟨0, 1, 2⟩
  let half : Footprint (Extended ℚ) :=
    ⟨.triangular 0 (number (1 / 2)) 1, .triangular 0 (number (1 / 10)) 1⟩
  let bell (width : ℚ) : Membership (Extended ℚ) :=
    .gaussian (number (1 / 2)) (number width) 1
  { inputs := [⟨"signal", unit, [⟨"HALF", half⟩]⟩,
      ⟨"trend", unit, [⟨"EVEN", ⟨bell (1 / 4), bell (1 / 2)⟩⟩]⟩]
    output := ⟨"trigger", unit, [⟨"YES", ⟨.trapezoidal 0 0 1 1, .trapezoidal 0 0 1 1⟩⟩]⟩
    rules := [.ofPairs [("signal", "HALF"), ("trend", "EVEN")] "YES"] }

theorem TypeTwo.footprints_ordered_crossed :
    ∃ system, crossed.build = .ok system ∧
      ∃ fuzzified, system.fuzzify [number 5, number (1 / 4)] = .ok fuzzified ∧
        (activate system fuzzified).Ordered := by
  have builds : crossed.build.toOption.any (fun _ => true) = true := by decide +kernel
  rcases exists_of_any_toOption builds with ⟨system, built, _⟩
  have inputs : system.inputs = crossed.inputs := (Definition.builds_of_build built).inputs
  rcases footprints_ordered built with ⟨values, lists⟩
  have enough : [number 5, number (1 / 4)].length = system.inputs.length := by
    rw [inputs]
    rfl
  rcases lists [number 5, number (1 / 4)] enough with ⟨fuzzified, made, rules, secured⟩
  refine ⟨system, built, fuzzified, made, rules (secured ?_)⟩
  rw [inputs] at values ⊢
  intro pair member term known
  rcases List.mem_cons.mp member with rfl | member
  · exact .inl ((values _ List.mem_cons_self _).2 (by decide +kernel))
  · cases List.mem_singleton.mp member
    cases List.mem_singleton.mp known
    exact .inr (.gaussian _ _ (by decide +kernel))

/-- Halfway between the sample points the first term is inverted, and so is the
output.  The bells have degree one there, whatever the exponential. -/
theorem TypeTwo.crossed_inverts :
    ∃ system, crossed.build = .ok system ∧
      ∃ fuzzified, system.fuzzify [number (1 / 2), number (1 / 2)] = .ok fuzzified ∧
        (∃ degrees ∈ fuzzified, ∃ degree ∈ degrees, ¬degree.Ordered) ∧
        ¬(activate system fuzzified).Ordered := by
  have inverted : crossed.build.toOption.any (fun system =>
      (system.fuzzify [number (1 / 2), number (1 / 2)]).toOption.any fun fuzzified =>
        (∃ degrees ∈ fuzzified, ∃ degree ∈ degrees, ¬degree.Ordered) ∧
          ¬(activate system fuzzified).Ordered) = true := by
    decide +kernel
  rcases exists_of_any_toOption inverted with ⟨system, built, inverted⟩
  rcases exists_of_any_toOption inverted with ⟨fuzzified, made, inverted⟩
  exact ⟨system, built, fuzzified, made, of_decide_eq_true inverted⟩

end Handover.Fuzzy
