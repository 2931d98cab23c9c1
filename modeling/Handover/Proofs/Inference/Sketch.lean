import Handover.Proofs.Fuzzy.Order
import Handover.Proofs.Fuzzy.Range
import Handover.Proofs.Inference.BuiltIn

/-!
# Terms without rounding

The terms of the built-in rule bases are bells whose means and widths are numbers.  In exact
arithmetic they pass every check, and both bounds of a footprint are in order everywhere.

A value that is no further than three widths from the mean of a term is in it at least to the
degree of `exp (-9 / 2)`, and a shoulder reaches without end on its flat side.  So the terms of a
variable leave no gap if each of them reaches as far as the next one.
-/

namespace Handover

open Fuzzy Scalar

/-! ## Numbers -/

namespace Extended

variable {K : Type} [Field K]

/-- The number that a value is, or zero if it is none. -/
def value : Extended K → K
  | number x => x
  | _ => 0

end Extended

open Extended

namespace Inference.TermSketch

/-! ## Bells of one outline -/

/-- The term with a bell of another width. -/
def withWidth {α : Type} [Scalar α] (sketch : TermSketch α) (width : α) : Membership α :=
  match sketch.outline with
  | .low => .lowShoulder sketch.mean width 1
  | .bell => .gaussian sketch.mean width 1
  | .high => .highShoulder sketch.mean width 1

theorem shape_eq {α : Type} [Scalar α] (sketch : TermSketch α) :
    sketch.shape = sketch.withWidth sketch.sigma := by
  obtain ⟨_, outline, _, _, _⟩ := sketch
  cases outline <;> rfl

theorem footprint_eq {α : Type} [Scalar α] (sketch : TermSketch α) :
    sketch.footprint = ⟨sketch.withWidth (sketch.sigma - sketch.spread / two),
      sketch.withWidth (sketch.sigma + sketch.spread / two)⟩ := by
  obtain ⟨_, outline, _, _, _⟩ := sketch
  cases outline <;> rfl

variable {K : Type} [Field K] [LinearOrder K] [FloorSemiring K] [Exponential K]

/-- The place of the mean. -/
def center (sketch : TermSketch (Extended K)) : K :=
  sketch.mean.value

/-- Width of the narrower bell of the footprint. -/
def least (sketch : TermSketch (Extended K)) : K :=
  (sketch.sigma - sketch.spread / two).value

/-- Width of the wider bell of the footprint. -/
def greatest (sketch : TermSketch (Extended K)) : K :=
  (sketch.sigma + sketch.spread / two).value

/-- The mean and the widths are numbers, and every bell has a width. -/
structure Measured (sketch : TermSketch (Extended K)) : Prop where
  mean : sketch.mean = number sketch.center
  sigma : sketch.sigma = number sketch.sigma.value
  spread : sketch.spread = number sketch.spread.value
  nonneg : 0 ≤ sketch.spread.value
  least_pos : 0 < sketch.least

/-- The value is no further from the mean than three widths, or on the side of a shoulder. -/
structure Near (sketch : TermSketch (Extended K)) (x : K) : Prop where
  left : sketch.outline ≠ .low → sketch.center - 3 * sketch.least ≤ x
  right : sketch.outline ≠ .high → x ≤ sketch.center + 3 * sketch.least

end Inference.TermSketch

/-- The degree at three widths from the mean of a bell. -/
def faintest (K : Type) [Field K] [LinearOrder K] [Exponential K] : K :=
  Exponential.exponential (-9 / 2 : ℚ)

namespace Inference.TermSketch

variable {K : Type} [Field K] [LinearOrder K] [FloorSemiring K] [Exponential K]
  [IsStrictOrderedRing K] {sketch : TermSketch (Extended K)} {width x : K}

omit [FloorSemiring K] in
theorem faintest_def : faintest K = Exponential.exponential (-(9 / 2)) := by
  rw [faintest]
  norm_num

omit [FloorSemiring K] in
theorem faintest_le_one : faintest K ≤ 1 := by
  have negative : -(9 / 2) ≤ (0 : K) := by linarith
  rw [faintest_def]
  exact (exponential_mono negative).trans_eq Exponential.exponential_zero

theorem faintest_le_clampUnit {height : K} (le : faintest K ≤ height) :
    number (faintest K) ≤ clampUnit (number height) := by
  rw [Membership.clampUnit_number, number_le]
  exact le_max_of_le_right (le_min faintest_le_one le)

theorem faintest_le_bell {mean : K} (positive : 0 < width) (near : |x - mean| ≤ 3 * width) :
    faintest K ≤ Exponential.exponential (-((x - mean) * (x - mean)) / (2 * width * width)) := by
  have square : (x - mean) * (x - mean) ≤ 3 * width * (3 * width) :=
    abs_mul_abs_self (x - mean) ▸ mul_self_le_mul_self (abs_nonneg _) near
  rw [faintest_def]
  apply exponential_mono
  rw [neg_div, neg_le_neg_iff, div_le_iff₀ (by positivity)]
  linarith

omit [IsStrictOrderedRing K] in
theorem Measured.check_withWidth (measured : sketch.Measured) (positive : 0 < width) :
    (sketch.withWidth (number width)).check = .ok () := by
  have checked := (Membership.checkBell_number sketch.center width 1).mpr
    ⟨positive, zero_lt_one, le_rfl⟩
  rw [← measured.mean] at checked
  unfold withWidth
  split <;> exact checked

/-- Within reach of a term, a value is in it to no less than the faintest degree. -/
theorem Measured.faintest_le_degree (measured : sketch.Measured) (wide : sketch.least ≤ width)
    (near : sketch.Near x) :
    number (faintest K) ≤ (sketch.withWidth (number width)).degree (number x) := by
  have positive : 0 < width := measured.least_pos.trans_le wide
  have flat : number (faintest K) ≤ clampUnit (1 : Extended K) :=
    faintest_le_clampUnit faintest_le_one
  have bell (left : sketch.center - 3 * sketch.least ≤ x)
      (right : x ≤ sketch.center + 3 * sketch.least) : number (faintest K) ≤
      clampUnit (Membership.bell sketch.mean (number width) 1 (number x)) := by
    have close : |x - sketch.center| ≤ 3 * width := by
      rw [abs_le]
      constructor <;> linarith
    rw [measured.mean, one_def, Membership.bell_number _ _ _ positive]
    exact faintest_le_clampUnit ((faintest_le_bell positive close).trans_eq (one_mul _).symm)
  have least := measured.least_pos
  unfold withWidth
  split
  · next low =>
    rw [Membership.degree, Membership.height]
    split_ifs with below
    · exact flat
    · rw [measured.mean, number_lt, not_lt] at below
      exact bell (by linarith) (near.right (ne_of_eq_of_ne low (by decide)))
  · next middle =>
    exact bell (near.left (ne_of_eq_of_ne middle (by decide)))
      (near.right (ne_of_eq_of_ne middle (by decide)))
  · next high =>
    rw [Membership.degree, Membership.height]
    split_ifs with above
    · exact flat
    · rw [measured.mean, number_lt, not_lt] at above
      exact bell (near.left (ne_of_eq_of_ne high (by decide))) (by linarith)

/-- A term reaches its own mean. -/
theorem Measured.near_center (measured : sketch.Measured) : sketch.Near sketch.center := by
  have least := measured.least_pos
  exact ⟨fun _ => by linarith, fun _ => by linarith⟩

/-! ## Checks -/

omit [IsStrictOrderedRing K] in
theorem Measured.half_spread (measured : sketch.Measured) :
    sketch.spread / two = number (sketch.spread.value / 2) := by
  rw [two_def, measured.spread, number_div _ two_ne_zero]
  rfl

omit [IsStrictOrderedRing K] in
theorem Measured.least_eq (measured : sketch.Measured) :
    sketch.least = sketch.sigma.value - sketch.spread.value / 2 := by
  rw [least, measured.half_spread, measured.sigma, number_sub]
  rfl

omit [IsStrictOrderedRing K] in
theorem Measured.greatest_eq (measured : sketch.Measured) :
    sketch.greatest = sketch.sigma.value + sketch.spread.value / 2 := by
  rw [greatest, measured.half_spread, measured.sigma, number_add]
  rfl

theorem Measured.least_le_sigma (measured : sketch.Measured) :
    sketch.least ≤ sketch.sigma.value := by
  rw [measured.least_eq]
  exact sub_le_self _ (div_nonneg measured.nonneg zero_le_two)

theorem Measured.least_le_greatest (measured : sketch.Measured) :
    sketch.least ≤ sketch.greatest := by
  rw [measured.greatest_eq]
  exact measured.least_le_sigma.trans
    (le_add_of_nonneg_right (div_nonneg measured.nonneg zero_le_two))

/-- A kind of membership draws terms with bells that are not narrower than the least one. -/
def Draws {μ : Type} (draw : TermSketch (Extended K) → μ) (shape : μ → Membership (Extended K)) :
    Prop :=
  ∀ sketch : TermSketch (Extended K), sketch.Measured → ∃ width, sketch.least ≤ width ∧
    shape (draw sketch) = sketch.withWidth (number width)

theorem draws_shape : Draws (K := K) shape id := fun sketch measured =>
  ⟨sketch.sigma.value, measured.least_le_sigma, by rw [id, shape_eq, ← measured.sigma]⟩

omit [IsStrictOrderedRing K] in
theorem Measured.footprint_eq (measured : sketch.Measured) : sketch.footprint =
    ⟨sketch.withWidth (number sketch.least), sketch.withWidth (number sketch.greatest)⟩ := by
  rw [TermSketch.footprint_eq, measured.least_eq, measured.greatest_eq, measured.half_spread,
    measured.sigma, number_sub, number_add]
  rfl

omit [IsStrictOrderedRing K] in
theorem draws_footprint : Draws (K := K) footprint Footprint.lower :=
  fun sketch measured => ⟨sketch.least, le_rfl, congrArg Footprint.lower measured.footprint_eq⟩

theorem Measured.validate_shape (measured : sketch.Measured) (name : String) :
    sketch.shape.validate name = .ok () := by
  rw [shape_eq, measured.sigma]
  exact Membership.validate_of_check
    (measured.check_withWidth (measured.least_pos.trans_le measured.least_le_sigma))

/-- Both bounds of the footprint have the same outline. -/
theorem Measured.nested (measured : sketch.Measured) : sketch.footprint.Nested := by
  have widens : (number sketch.least : Extended K) ≤ number sketch.greatest :=
    (number_le _ _).mpr measured.least_le_greatest
  rw [measured.footprint_eq]
  unfold withWidth
  split
  · exact .lowShoulder _ _ widens
  · exact .gaussian _ _ widens
  · exact .highShoulder _ _ widens

theorem Measured.validate_footprint (measured : sketch.Measured) (name : String)
    (samples : List (Extended K)) : sketch.footprint.validate name samples = .ok () := by
  have lower : sketch.footprint.lower.check = .ok () := by
    rw [measured.footprint_eq]
    exact measured.check_withWidth measured.least_pos
  have upper : sketch.footprint.upper.check = .ok () := by
    rw [measured.footprint_eq]
    exact measured.check_withWidth (measured.least_pos.trans_le measured.least_le_greatest)
  exact measured.nested.validate lower upper name samples

/-! ## Terms without a gap -/

/-- The first term reaches as far as the second one. -/
def Meets (first second : TermSketch (Extended K)) : Prop :=
  second.center - 3 * second.least ≤ first.center + 3 * first.least

/-- Terms from a low shoulder to a high one, each of which meets the next one. -/
@[mk_iff]
structure Spans (sketches : List (TermSketch (Extended K))) : Prop where
  nonempty : sketches ≠ []
  measured : ∀ sketch ∈ sketches, sketch.Measured
  first : ∀ sketch ∈ sketches.head?, sketch.outline = .low
  meets : sketches.IsChain Meets
  last : ∀ sketch ∈ sketches.getLast?, sketch.outline = .high

omit [IsStrictOrderedRing K] in
/-- A value to the right of where the first term begins is in reach of some term. -/
theorem exists_near_of_chain {first : TermSketch (Extended K)}
    {rest : List (TermSketch (Extended K))} (meets : (first :: rest).IsChain Meets)
    (last : ∀ sketch ∈ (first :: rest).getLast?, sketch.outline = .high)
    (begun : first.outline ≠ .low → first.center - 3 * first.least ≤ x) :
    ∃ sketch ∈ first :: rest, sketch.Near x := by
  induction rest generalizing first with
  | nil => exact ⟨first, List.mem_cons_self, begun, fun other => absurd (last first rfl) other⟩
  | cons second rest ih =>
      by_cases reaches : x ≤ first.center + 3 * first.least
      · exact ⟨first, List.mem_cons_self, begun, fun _ => reaches⟩
      · obtain ⟨meet, meets⟩ := List.isChain_cons_cons.mp meets
        obtain ⟨sketch, member, near⟩ :=
          ih meets last fun _ => meet.trans (not_le.mp reaches).le
        exact ⟨sketch, List.mem_cons_of_mem _ member, near⟩

omit [IsStrictOrderedRing K] in
theorem Spans.exists_near {sketches : List (TermSketch (Extended K))} (spans : Spans sketches)
    (x : K) : ∃ sketch ∈ sketches, sketch.Near x := by
  obtain ⟨first, rest, rfl⟩ := List.exists_cons_of_ne_nil spans.nonempty
  exact exists_near_of_chain spans.meets spans.last fun other =>
    absurd (spans.first first rfl) other

end Inference.TermSketch

end Handover
