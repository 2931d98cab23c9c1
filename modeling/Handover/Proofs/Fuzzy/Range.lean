import Handover.Fuzzy.TypeTwo
import Handover.Proofs.Fuzzy.Mean
import Handover.Proofs.Fuzzy.Profile
import Handover.Proofs.Fuzzy.Thin

/-!
# Answers stay in the output range

In exact arithmetic the clipped and joined output is a degree at every sample point,
whatever the activations are, and the sample points lie between the bounds of the
output range.  A centroid is a mean of sample points under such weights, and so is
every estimate of type reduction, also the last one that it has rounds for.  So a
built system answers only within its output range.
-/

namespace Handover.Fuzzy

open Scalar Extended

/-- The value lies between the bounds of the range. -/
def Domain.Contains {α : Type} [Scalar α] (domain : Domain α) (x : α) : Prop :=
  domain.min ≤ x ∧ x ≤ domain.max

variable {K : Type} [Field K] [LinearOrder K]

/-- A number from zero to one. -/
def IsDegree (x : Extended K) : Prop :=
  ∃ d, x = number d ∧ 0 ≤ d ∧ d ≤ 1

variable [FloorSemiring K] [Exponential K]

omit [FloorSemiring K] [Exponential K] in
theorem IsDegree.numeric {x : Extended K} (degree : IsDegree x) : x ≠ notNumber := by
  rcases degree with ⟨d, rfl, _⟩
  exact nofun

/-- A degree stays one when a clipped degree is joined to it, whatever it is clipped at. -/
theorem IsDegree.greater_lesser {top degree : Extended K} (first : IsDegree top)
    (second : IsDegree degree) (strength : Extended K) :
    IsDegree (Scalar.greater top (lesser strength degree)) := by
  rcases greater_eq top (lesser strength degree) with ⟨equal, _⟩ | ⟨equal, above⟩
  · rwa [equal]
  rw [equal]
  rcases lesser_eq strength degree with ⟨same, below⟩ | ⟨same, _⟩
  · rw [same] at above ⊢
    have atLeast := above.resolve_right first.numeric
    have atMost := below.resolve_right second.numeric
    rcases first with ⟨t, rfl, nonneg, _⟩
    rcases second with ⟨d, rfl, _, le⟩
    cases strength with
    | number a =>
        exact ⟨a, rfl, nonneg.trans ((number_le t a).mp atLeast),
          ((number_le a d).mp atMost).trans le⟩
    | plusInfinity => cases atMost
    | minusInfinity => cases atLeast
    | notNumber => cases atMost
  · rwa [same]

variable [IsStrictOrderedRing K]

omit [FloorSemiring K] [Exponential K] in
theorem isDegree_zero : IsDegree (number (0 : K)) :=
  ⟨0, rfl, le_rfl, zero_le_one⟩

theorem Membership.degree_isDegree {shape : Membership (Extended K)}
    (checked : shape.check = .ok ()) (x : K) : IsDegree (shape.degree (number x)) := by
  rcases height_number checked x with ⟨h, equal⟩
  exact ⟨_, by rw [degree, equal, clampUnit_number], le_max_left 0 _,
    max_le zero_le_one (min_le_left 1 h)⟩

/-! ## Sample points -/

/-- The sample points of a checked range are numbers at the same distance from each other. -/
theorem Domain.samples_spaced {domain : Domain (Extended K)} (checked : domain.check = .ok ()) :
    ∃ low width : K, 0 < width ∧ domain.min = number low ∧
      domain.max = number (low + (domain.points.toNat - 1 : Nat) * width) ∧
      ∀ index : Nat, domain.sample index = number (low + index * width) := by
  rcases numbers_of_check checked with ⟨low, high, lowest, highest, ordered, enough⟩
  have steps : Nat.max (domain.points.toNat - 1) 1 = domain.points.toNat - 1 :=
    Nat.max_eq_left (by omega)
  have positive : (0 : K) < (domain.points.toNat - 1 : Nat) := Nat.cast_pos.mpr (by omega)
  have last : low + (domain.points.toNat - 1 : Nat) *
      ((high - low) / (domain.points.toNat - 1 : Nat)) = high := by
    rw [mul_div_cancel₀ _ positive.ne', add_sub_cancel]
  refine ⟨low, (high - low) / (domain.points.toNat - 1 : Nat),
    div_pos (sub_pos.mpr ordered) positive, lowest, by rw [last, highest], fun index => ?_⟩
  simp only [sample, step_number lowest highest, steps, lowest, highest, ofNat_def, number_mul,
    number_add]
  split
  · next final =>
    -- Without rounding the upper bound is where the next step leads.
    rw [show index = domain.points.toNat - 1 by omega, last]
  · rfl

omit [IsStrictOrderedRing K] in
theorem Domain.samples_eq_map {domain : Domain (Extended K)} {point : Nat → K}
    (spaced : ∀ index : Nat, domain.sample index = number (point index)) :
    domain.samples = ((List.range domain.points.toNat).map point).map number := by
  rw [samples, List.map_map]
  exact List.map_congr_left fun index _ => spaced index

/-- The sample points of a checked range are numbers between its bounds. -/
theorem Domain.samples_between {domain : Domain (Extended K)} (checked : domain.check = .ok ()) :
    ∃ low high : K, domain.min = number low ∧ domain.max = number high ∧
      ∀ x ∈ domain.samples, ∃ n, x = number n ∧ low ≤ n ∧ n ≤ high := by
  rcases samples_spaced checked with ⟨low, width, positive, lowest, highest, spaced⟩
  refine ⟨low, _, lowest, highest, ?_⟩
  intro x member
  rcases List.mem_map.mp member with ⟨index, inside, rfl⟩
  have within : index ≤ domain.points.toNat - 1 := Nat.le_sub_one_of_lt (List.mem_range.mp inside)
  refine ⟨_, spaced index, le_add_of_nonneg_right (by positivity), ?_⟩
  exact add_le_add_right (mul_le_mul_of_nonneg_right (Nat.cast_le.mpr within) positive.le) low

/-- The sample points of a checked range ascend. -/
theorem Domain.samples_ascending {domain : Domain (Extended K)}
    (checked : domain.check = .ok ()) :
    ∃ xs : List K, domain.samples = xs.map number ∧ xs ≠ [] ∧ xs.Pairwise (· < ·) := by
  rcases samples_spaced checked with ⟨low, width, positive, _, _, spaced⟩
  refine ⟨_, samples_eq_map spaced, ?_, ?_⟩
  · rcases numbers_of_check checked with ⟨_, _, _, _, _, enough⟩
    rw [Ne, List.map_eq_nil_iff, List.range_eq_nil]
    omega
  · rw [List.pairwise_map]
    refine List.pairwise_lt_range.imp fun {i j} less => ?_
    exact add_lt_add_right (mul_lt_mul_of_pos_right (Nat.cast_lt.mpr less) positive) low

omit [IsStrictOrderedRing K] in
/-- The values of a range between numbers are the numbers between them. -/
theorem Domain.contains_iff {domain : Domain (Extended K)} {low high : K}
    (lowest : domain.min = number low) (highest : domain.max = number high) {x : Extended K} :
    domain.Contains x ↔ ∃ n, x = number n ∧ low ≤ n ∧ n ≤ high := by
  rw [Contains, lowest, highest]
  constructor
  · rintro ⟨least, most⟩
    cases x with
    | number n => exact ⟨n, rfl, (number_le low n).mp least, (number_le n high).mp most⟩
    | plusInfinity => cases most
    | minusInfinity => cases least
    | notNumber => cases least
  · rintro ⟨n, rfl, least, most⟩
    exact ⟨(number_le low n).mpr least, (number_le n high).mpr most⟩

/-! ## Centroids -/

/-- A centroid under degrees lies in the range. -/
theorem Domain.contains_mean {domain : Domain (Extended K)} (checked : domain.check = .ok ())
    {weights : List (Extended K)} (paired : domain.samples.length = weights.length)
    (degrees : ∀ w ∈ weights, IsDegree w) {mean : Extended K}
    (balanced : weightedMean? domain.samples weights = some mean) : domain.Contains mean := by
  rcases samples_between checked with ⟨low, high, lowest, highest, between⟩
  rcases exists_numbers between with ⟨xs, points, inside⟩
  rcases exists_numbers degrees with ⟨ws, rfl, unit⟩
  rw [points] at balanced paired
  rw [List.length_map, List.length_map] at paired
  exact (contains_iff lowest highest).mpr
    (weightedMean?_between paired inside (fun w member => (unit w member).1) balanced)

theorem TypeOne.joined_isDegree {terms : List (Term (Membership (Extended K)))}
    (checked : ∀ term ∈ terms, term.membership.check = .ok ()) (activation : List (Extended K))
    (x : K) : IsDegree (joined terms activation (number x)) := by
  have clipped : ∀ pair ∈ terms.zip activation, pair.1.membership.check = .ok () :=
    fun pair member => checked pair.1 (List.of_mem_zip member).1
  unfold joined
  generalize terms.zip activation = pairs at clipped
  induction pairs using List.reverseRecOn with
  | nil => exact isDegree_zero
  | append_singleton rest pair ih =>
      rw [List.forall_mem_append, List.forall_mem_singleton] at clipped
      rw [List.foldl_append]
      exact (ih clipped.1).greater_lesser (Membership.degree_isDegree clipped.2 x) pair.2

theorem TypeTwo.joinedBound_isDegree {bound : Footprint (Extended K) → Membership (Extended K)}
    {terms : List (Term (Footprint (Extended K)))}
    (checked : ∀ term ∈ terms, (bound term.membership).check = .ok ()) (x : K)
    (activation : List (Extended K)) {top : Extended K} (degree : IsDegree top) :
    IsDegree (joinedBound bound (number x) terms activation top) := by
  induction terms generalizing activation top with
  | nil => exact degree
  | cons term rest ih =>
      rw [List.forall_mem_cons] at checked
      have joined := degree.greater_lesser (Membership.degree_isDegree checked.1 x)
        (activation.headD 0)
      exact ih checked.2 activation.tail joined

/-! ## Type reduction -/

section Reduction

variable {side : End} {low high : K}

/-- Every estimate of type reduction is a mean of the points. -/
theorem followEstimate_between {xs lower upper : List K}
    (pairedLower : xs.length = lower.length) (pairedUpper : xs.length = upper.length)
    (inside : ∀ x ∈ xs, low ≤ x ∧ x ≤ high) (nonnegLower : ∀ w ∈ lower, 0 ≤ w)
    (nonnegUpper : ∀ w ∈ upper, 0 ≤ w) {rounds : Nat} {estimate : K}
    (between : low ≤ estimate ∧ estimate ≤ high) {last : Extended K}
    (followed : followEstimate side (xs.map number) (lower.map number) (upper.map number) rounds
      (number estimate) = some last) :
    ∃ y, last = number y ∧ low ≤ y ∧ y ≤ high := by
  induction rounds generalizing estimate with
  | zero =>
      cases followed
      exact ⟨estimate, rfl, between⟩
  | succ rounds ih =>
      rw [followEstimate, switchedWeights_map] at followed
      split at followed
      · cases followed
      · next balanced =>
        have paired := (length_switchedWeights side (pairedLower.symm.trans pairedUpper)
          (switchIndex (xs.map number) (number estimate : Extended K))).trans pairedUpper.symm
        rcases weightedMean?_between paired.symm inside
          (fun w member => (mem_switchedWeights member).elim (nonnegLower w) (nonnegUpper w))
          balanced with ⟨next, rfl, closer⟩
        split at followed
        · cases followed
          exact ⟨next, rfl, closer⟩
        · exact ih closer followed

theorem centroidEnd?_between {xs lower upper : List K}
    (pairedLower : xs.length = lower.length) (pairedUpper : xs.length = upper.length)
    (inside : ∀ x ∈ xs, low ≤ x ∧ x ≤ high) (nonnegLower : ∀ w ∈ lower, 0 ≤ w)
    (nonnegUpper : ∀ w ∈ upper, 0 ≤ w) {last : Extended K}
    (found : centroidEnd? side (xs.map number) (lower.map number) (upper.map number) =
      some last) :
    ∃ y, last = number y ∧ low ≤ y ∧ y ≤ high := by
  rw [centroidEnd?, middleWeights_number] at found
  split at found
  · cases found
  · next balanced =>
    have paired := (length_halfway (pairedLower.symm.trans pairedUpper)).trans pairedUpper.symm
    have nonneg : ∀ w ∈ halfway lower upper, 0 ≤ w := by
      intro w member
      rcases mem_halfway member with ⟨l, small, h, large, rfl⟩
      exact div_nonneg (add_nonneg (nonnegLower l small) (nonnegUpper h large)) zero_le_two
    rcases weightedMean?_between paired.symm inside nonneg balanced with ⟨start, rfl, between⟩
    exact followEstimate_between pairedLower pairedUpper inside nonnegLower nonnegUpper between
      found

/-- Both ends of the interval of centroids lie in the range, in this order. -/
theorem Domain.contains_karnikMendel? {domain : Domain (Extended K)}
    (checked : domain.check = .ok ()) {lower upper : List (Extended K)}
    (degreesLower : ∀ w ∈ lower, IsDegree w) (degreesUpper : ∀ w ∈ upper, IsDegree w)
    {left right : Extended K}
    (reduced : karnikMendel? domain.samples lower upper = some (left, right)) :
    domain.Contains left ∧ left ≤ right ∧ domain.Contains right := by
  rcases samples_between checked with ⟨low, high, lowest, highest, between⟩
  rcases exists_numbers between with ⟨xs, points, inside⟩
  rcases exists_numbers degreesLower with ⟨ls, rfl, unitLower⟩
  rcases exists_numbers degreesUpper with ⟨us, rfl, unitUpper⟩
  rw [points, karnikMendel?] at reduced
  split at reduced
  · cases reduced
  · next paired =>
    simp only [List.length_map, not_or, not_not] at paired
    have nonnegLower : ∀ w ∈ ls, 0 ≤ w := fun w member => (unitLower w member).1
    have nonnegUpper : ∀ w ∈ us, 0 ≤ w := fun w member => (unitUpper w member).1
    split at reduced
    · next first second foundFirst foundSecond =>
      rcases centroidEnd?_between paired.2.1 paired.2.2 inside nonnegLower nonnegUpper foundFirst
        with ⟨l, rfl, left⟩
      rcases centroidEnd?_between paired.2.1 paired.2.2 inside nonnegLower nonnegUpper foundSecond
        with ⟨r, rfl, right⟩
      cases reduced
      rw [lesser_number, greater_number, contains_iff lowest highest, contains_iff lowest highest,
        number_le]
      exact ⟨⟨_, rfl, le_min left.1 right.1, (min_le_left l r).trans left.2⟩,
        min_le_max, _, rfl, left.1.trans (le_max_left l r), max_le left.2 right.2⟩
    · cases reduced

end Reduction

/-! ## Built systems -/

theorem TypeOne.evaluate_contained {definition : TypeOneDefinition (Extended K)}
    {system : TypeOneSystem (Extended K)} (built : definition.build = .ok system)
    {crisp : List (Extended K)} {score : Extended K}
    (answered : evaluate system crisp = .ok score) : system.output.domain.Contains score := by
  have builds := Definition.builds_of_build built
  have valid : system.output.Valid := builds.output ▸ builds.validOutput
  have checked : ∀ term ∈ system.output.terms, term.membership.check = .ok () :=
    fun term member => Membership.check_of_validate (valid.terms term member)
  rcases exists_of_bind_eq_ok answered with ⟨fuzzified, _, answered⟩
  rw [defuzzify_eq] at answered
  split at answered
  · next mean balanced =>
    cases answered
    refine Domain.contains_mean valid.domain (List.length_map _).symm ?_ balanced
    intro w member
    rcases List.mem_map.mp member with ⟨x, sampled, rfl⟩
    rcases Domain.number_of_mem_samples valid.domain sampled with ⟨n, rfl⟩
    exact joined_isDegree checked _ n
  · cases answered

/-- The joined output of a built system is an interval of degrees at every number. -/
theorem TypeTwo.joined_between {definition : TypeTwoDefinition (Extended K)}
    {system : TypeTwoSystem (Extended K)} (built : definition.build = .ok system)
    (activation : IntervalActivation (Extended K)) (x : K) :
    ∃ low high, joined system activation (number x) = ⟨number low, number high⟩ ∧
      0 ≤ low ∧ low ≤ high ∧ high ≤ 1 := by
  have builds := Definition.builds_of_build built
  have valid : system.output.Valid := builds.output ▸ builds.validOutput
  have checked (term : Term (Footprint (Extended K))) (member : term ∈ system.output.terms) :=
    Footprint.checks_of_validate (valid.terms term member)
  rcases joinedBound_isDegree (fun term member => (checked term member).1) x activation.lower
    isDegree_zero with ⟨low, lower, nonneg, small⟩
  rcases joinedBound_isDegree (fun term member => (checked term member).2.1) x activation.upper
    isDegree_zero with ⟨high, upper, _, most⟩
  refine ⟨low, max high low, ?_, nonneg, le_max_right high low, max_le most small⟩
  rw [joined, zero_def, lower, upper, greater_number]

/-- The interval of centroids lies in the output range, whatever the activations are. -/
theorem TypeTwo.reduceType_contained {definition : TypeTwoDefinition (Extended K)}
    {system : TypeTwoSystem (Extended K)} (built : definition.build = .ok system)
    {activation : IntervalActivation (Extended K)} {left right : Extended K}
    (reduced : reduceType system activation = .ok (left, right)) :
    system.output.domain.Contains left ∧ left ≤ right ∧ system.output.domain.Contains right := by
  have builds := Definition.builds_of_build built
  have valid : system.output.Valid := builds.output ▸ builds.validOutput
  have degrees (x : Extended K) (sampled : x ∈ system.output.domain.samples) :
      IsDegree (joined system activation x).lower ∧
        IsDegree (joined system activation x).upper := by
    rcases Domain.number_of_mem_samples valid.domain sampled with ⟨n, rfl⟩
    rcases joined_between built activation n with ⟨low, high, equal, nonneg, ordered, most⟩
    rw [equal]
    exact ⟨⟨low, rfl, nonneg, ordered.trans most⟩, high, rfl, nonneg.trans ordered, most⟩
  rw [reduceType] at reduced
  split at reduced
  · next ends found =>
    cases reduced
    refine Domain.contains_karnikMendel? valid.domain ?_ ?_ found <;>
      simp only [List.forall_mem_map]
    · exact fun x sampled => (degrees x sampled).1
    · exact fun x sampled => (degrees x sampled).2
  · cases reduced

/-- The midpoint of two values of the range is one. -/
theorem Domain.contains_midpoint {domain : Domain (Extended K)} (checked : domain.check = .ok ())
    {left right : Extended K} (first : domain.Contains left) (second : domain.Contains right) :
    domain.Contains ((left + right) / two) := by
  rcases numbers_of_check checked with ⟨low, high, lowest, highest, _, _⟩
  rw [contains_iff lowest highest] at first second ⊢
  rcases first with ⟨l, rfl, leastLeft, mostLeft⟩
  rcases second with ⟨r, rfl, leastRight, mostRight⟩
  rw [number_add, two_def, number_div _ (two_ne_zero' K)]
  exact ⟨_, rfl, by linarith, by linarith⟩

theorem TypeTwo.evaluate_contained {definition : TypeTwoDefinition (Extended K)}
    {system : TypeTwoSystem (Extended K)} (built : definition.build = .ok system)
    {crisp : List (Extended K)} {score : Extended K}
    (answered : evaluate system crisp = .ok score) : system.output.domain.Contains score := by
  have builds := Definition.builds_of_build built
  have valid : system.output.Valid := builds.output ▸ builds.validOutput
  rcases exists_of_bind_eq_ok answered with ⟨fuzzified, _, answered⟩
  rcases exists_of_bind_eq_ok answered with ⟨⟨left, right⟩, reduced, answered⟩
  cases answered
  have contained := reduceType_contained built reduced
  exact Domain.contains_midpoint valid.domain contained.1 contained.2.2

end Handover.Fuzzy
