import Handover.Proofs.Fuzzy.Order

/-!
# Bells of uncertain width

A footprint between two bells, one narrower and one wider than the bell that is meant, is in
order at every value and not only at the sample points, so its check never fails on it.  The
more uncertain the width is, the more the footprint covers.
-/

namespace Handover.Fuzzy

open Scalar Extended

namespace Footprint

section Shapes

variable {α : Type} [Scalar α]

/-- The footprints of uncertain width, by the mean, the width, its spread and the height. -/
def uncertain : List (α → α → α → α → Footprint α) :=
  [gaussian, lowShoulder, highShoulder]

/-- Bells of every width around a mean, all with the same height. -/
structure Bells (mean top : α) (shape : α → Membership α) : Prop where
  check : ∀ width, (shape width).check = Membership.checkBell mean width top
  nested : ∀ {narrow wide}, narrow ≤ wide → Nested ⟨shape narrow, shape wide⟩

theorem exists_bells {build : α → α → α → α → Footprint α} (member : build ∈ uncertain)
    (mean top : α) :
    ∃ shape, Bells mean top shape ∧
      ∀ sigma spread, build mean sigma spread top = ofSpread shape sigma spread := by
  simp only [uncertain, List.mem_cons, List.not_mem_nil, or_false] at member
  rcases member with rfl | rfl | rfl
  · exact ⟨_, ⟨fun _ => rfl, .gaussian mean top⟩, fun _ _ => rfl⟩
  · exact ⟨_, ⟨fun _ => rfl, .lowShoulder mean top⟩, fun _ _ => rfl⟩
  · exact ⟨_, ⟨fun _ => rfl, .highShoulder mean top⟩, fun _ _ => rfl⟩

end Shapes

variable {K : Type} [Field K] [LinearOrder K] [FloorSemiring K] [Exponential K]

/-- The lower bound is nowhere above the upper one. -/
def Upright (footprint : Footprint (Extended K)) : Prop :=
  ∀ x, x ≠ notNumber → footprint.lower.degree x ≤ footprint.upper.degree x

/-- The first footprint lies between the bounds of the second one. -/
def Within (inner outer : Footprint (Extended K)) : Prop :=
  ∀ x, x ≠ notNumber →
    outer.lower.degree x ≤ inner.lower.degree x ∧ inner.upper.degree x ≤ outer.upper.degree x

theorem ofSpread_number (shape : Extended K → Membership (Extended K)) (sigma spread : K) :
    ofSpread shape (number sigma) (number spread) =
      ⟨shape (number (sigma - spread / 2)), shape (number (sigma + spread / 2))⟩ := by
  rw [ofSpread, two_def, number_div spread two_ne_zero, number_sub, number_add]

theorem Bells.check_number {mean top width : K} {shape : Extended K → Membership (Extended K)}
    (bells : Bells (number mean) (number top) shape) (positive : 0 < width) (tall : 0 < top)
    (low : top ≤ 1) : (shape (number width)).check = .ok () :=
  (bells.check _).trans ((Membership.checkBell_number mean width top).mpr ⟨positive, tall, low⟩)

variable [IsStrictOrderedRing K]

/-- A wider one of the bells is nowhere lower. -/
theorem Bells.degree_le {mean top narrow wide : K} {shape : Extended K → Membership (Extended K)}
    (bells : Bells (number mean) (number top) shape) (positive : 0 < narrow)
    (widens : narrow ≤ wide) (tall : 0 < top) (low : top ≤ 1) {x : Extended K}
    (numeric : x ≠ notNumber) :
    (shape (number narrow)).degree x ≤ (shape (number wide)).degree x :=
  (bells.nested ((number_le narrow wide).mpr widens)).degree_le
    (bells.check_number positive tall low)
    (bells.check_number (positive.trans_le widens) tall low) numeric

/-- The bounds of a footprint of uncertain width are in order at every value, so that it passes
its check on any sample points, and a greater spread only makes it cover more. -/
theorem uncertain_width_sound
    {build : Extended K → Extended K → Extended K → Extended K → Footprint (Extended K)}
    (member : build ∈ uncertain) (mean : K) {sigma spread top : K} (nonneg : 0 ≤ spread)
    (positive : 0 < sigma - spread / 2) (tall : 0 < top) (low : top ≤ 1) :
    (build (number mean) (number sigma) (number spread) (number top)).Upright ∧
    (∀ term samples,
      (build (number mean) (number sigma) (number spread) (number top)).validate term samples =
        .ok ()) ∧
    ∀ wider, spread ≤ wider → 0 < sigma - wider / 2 →
      Within (build (number mean) (number sigma) (number spread) (number top))
        (build (number mean) (number sigma) (number wider) (number top)) := by
  obtain ⟨shape, bells, made⟩ := exists_bells member (number mean) (number top)
  have widens : sigma - spread / 2 ≤ sigma + spread / 2 := by linarith
  simp only [made, ofSpread_number]
  refine ⟨fun x => bells.degree_le positive widens tall low, fun term samples => ?_,
    fun wider more least x numeric => ⟨?_, ?_⟩⟩
  · exact (bells.nested ((number_le _ _).mpr widens)).validate
      (bells.check_number positive tall low)
      (bells.check_number (positive.trans_le widens) tall low) term samples
  · exact bells.degree_le least (by linarith) tall low numeric
  · exact bells.degree_le (positive.trans_le widens) (by linarith) tall low numeric

/-- A shoulder whose width is uncertain. -/
def vague (spread : ℚ) : Footprint (Extended ℚ) :=
  lowShoulder (number (1 / 2)) (number (1 / 10)) (number spread) (number 1)

theorem uncertain_width_sound_vague :
    (vague (1 / 25)).Upright ∧
      (vague (1 / 25)).validate "LOW" [number (3 / 5), plusInfinity, notNumber] = .ok () ∧
      Within (vague (1 / 25)) (vague (1 / 10)) := by
  have member : lowShoulder ∈ uncertain (α := Extended ℚ) :=
    List.mem_cons_of_mem _ List.mem_cons_self
  obtain ⟨upright, accepted, within⟩ := uncertain_width_sound member (1 / 2)
    (by norm_num : (0 : ℚ) ≤ 1 / 25) (by norm_num : (0 : ℚ) < 1 / 10 - 1 / 25 / 2)
    (by norm_num : (0 : ℚ) < 1) le_rfl
  exact ⟨upright, accepted _ _, within (1 / 10) (by norm_num) (by norm_num)⟩

end Footprint

end Handover.Fuzzy
