import Handover.Proofs.Fuzzy.Build
import Handover.Proofs.Fuzzy.Exact

/-!
# Profiles of shapes

In exact arithmetic every shape that passes its checks is a proper fuzzy set: it rises to its
top, is level there and falls behind it, and its height is a degree without being clamped.
Each shape is the lower of two flanks, one that rises to the first point of the top and stays
at its height from there on, and the mirror image of another one.  A shoulder lacks one of its
flanks, and a triangle is a trapezoid whose top is one point.
-/

namespace Handover.Fuzzy

open Scalar Extended

/-! ## Parts of a shape -/

namespace Membership

section Parts

variable {α : Type} [Scalar α]

/-- The first point of the top of a shape. -/
def topStart : Membership α → α
  | gaussian mean _ _ => mean
  | lowShoulder mean _ _ => mean
  | highShoulder mean _ _ => mean
  | triangular _ peak _ => peak
  | trapezoidal _ leftTop _ _ => leftTop

/-- The last point of the top of a shape. -/
def topEnd : Membership α → α
  | gaussian mean _ _ => mean
  | lowShoulder mean _ _ => mean
  | highShoulder mean _ _ => mean
  | triangular _ peak _ => peak
  | trapezoidal _ _ rightTop _ => rightTop

/-- The height of the top of a shape. -/
def summit : Membership α → α
  | gaussian _ _ top => top
  | lowShoulder _ _ top => top
  | highShoulder _ _ top => top
  | triangular _ _ _ => 1
  | trapezoidal _ _ _ _ => 1

/-- The value lies on the side on which the shape stays at its height. -/
def OnShoulder : Membership α → α → Prop
  | lowShoulder mean _ _, x => x ≤ mean
  | highShoulder mean _ _, x => mean ≤ x
  | _, _ => False

/-- The feet of a shape that has feet. -/
def feet? : Membership α → Option (α × α)
  | triangular left _ right => some (left, right)
  | trapezoidal left _ _ right => some (left, right)
  | _ => none

/-- A quotient, unless the divisor is not positive. -/
def ratio? (x y : α) : Option α :=
  if 0 < y then some (x / y) else none

def bell? (mean sigma top x : α) : Option α :=
  (ratio? (-((x - mean) * (x - mean))) (two * sigma * sigma)).map fun exponent =>
    top * exp exponent

def triangle? (left peak right x : α) : Option α :=
  if x ≤ left ∨ right ≤ x then
    if Same x peak then some 1 else some 0
  else if x ≤ peak then ratio? (x - left) (peak - left)
  else ratio? (right - x) (right - peak)

def trapezoid? (left leftTop rightTop right x : α) : Option α :=
  if leftTop ≤ x ∧ x ≤ rightTop then some 1
  else if x ≤ left ∨ right ≤ x then some 0
  else if x < leftTop then ratio? (x - left) (leftTop - left)
  else ratio? (right - x) (right - rightTop)

/-- Height of the shape at `x`, unless something is divided by what is not positive. -/
def height? : Membership α → α → Option α
  | gaussian mean sigma top, x => bell? mean sigma top x
  | lowShoulder mean sigma top, x => if x < mean then some top else bell? mean sigma top x
  | highShoulder mean sigma top, x => if mean < x then some top else bell? mean sigma top x
  | triangular left peak right, x => triangle? left peak right x
  | trapezoidal left leftTop rightTop right, x => trapezoid? left leftTop rightTop right x

theorem ratio?_eq_some {x y z : α} (positive : ratio? x y = some z) : x / y = z := by
  unfold ratio? at positive
  split_ifs at positive
  exact Option.some.inj positive

theorem bell_of_bell? {mean sigma top x h : α} (found : bell? mean sigma top x = some h) :
    bell mean sigma top x = h := by
  obtain ⟨exponent, quotient, rfl⟩ := Option.map_eq_some_iff.mp found
  rw [bell, ratio?_eq_some quotient]

theorem triangle_of_triangle? {left peak right x h : α}
    (found : triangle? left peak right x = some h) : triangle left peak right x = h := by
  unfold triangle? at found
  unfold triangle
  split_ifs at found ⊢
  · exact Option.some.inj found
  · exact Option.some.inj found
  · exact ratio?_eq_some found
  · exact ratio?_eq_some found

theorem trapezoid_of_trapezoid? {left leftTop rightTop right x h : α}
    (found : trapezoid? left leftTop rightTop right x = some h) :
    trapezoid left leftTop rightTop right x = h := by
  unfold trapezoid? at found
  unfold trapezoid
  split_ifs at found ⊢
  · exact Option.some.inj found
  · exact Option.some.inj found
  · exact ratio?_eq_some found
  · exact ratio?_eq_some found

/-- A height that is found without a forbidden quotient is the height. -/
theorem height_of_height? {shape : Membership α} {x h : α} (found : shape.height? x = some h) :
    shape.height x = h := by
  cases shape with
  | gaussian mean sigma top => exact bell_of_bell? found
  | lowShoulder mean sigma top =>
      rw [height?] at found
      rw [height]
      split_ifs at found ⊢
      · exact Option.some.inj found
      · exact bell_of_bell? found
  | highShoulder mean sigma top =>
      rw [height?] at found
      rw [height]
      split_ifs at found ⊢
      · exact Option.some.inj found
      · exact bell_of_bell? found
  | triangular left peak right => exact triangle_of_triangle? found
  | trapezoidal left leftTop rightTop right => exact trapezoid_of_trapezoid? found

end Parts

end Membership

/-! ## Flanks -/

section Flanks

variable {K : Type} [Field K] [LinearOrder K]

/-- A height that rises up to a point and stays at the top from there on. -/
structure Climb {X : Type} [LE X] (height : X → K) (first : X) (top : K) : Prop where
  mono : ∀ {x y}, x ≤ y → height x ≤ height y
  nonneg : ∀ x, 0 ≤ height x
  le_top : ∀ x, height x ≤ top
  arrives : ∀ x, first ≤ x → height x = top

/-- The flank that a shoulder does not have. -/
theorem climb_const {X : Type} [LE X] (first : X) {top : K} (nonneg : 0 ≤ top) :
    Climb (fun _ => top) first top where
  mono _ := le_rfl
  nonneg _ := nonneg
  le_top _ := le_rfl
  arrives _ _ := rfl

/-- A flank with its ends at the infinities. -/
def unending (height : K → K) (top : K) : Extended K → K
  | number x => height x
  | plusInfinity => top
  | minusInfinity => 0
  | notNumber => 0

theorem climb_unending [FloorSemiring K] [Exponential K] {height : K → K} {first top : K}
    (climb : Climb height first top) : Climb (unending height top) (number first) top where
  mono {x y} le := by
    have nonneg : 0 ≤ top := (climb.nonneg first).trans (climb.le_top first)
    cases x with
    | number x =>
        cases y with
        | number y => exact climb.mono ((number_le x y).mp le)
        | plusInfinity => exact climb.le_top x
        | _ => cases le
    | minusInfinity =>
        cases y with
        | number y => exact climb.nonneg y
        | plusInfinity => exact nonneg
        | minusInfinity => exact le_rfl
        | notNumber => cases le
    | plusInfinity =>
        cases y with
        | plusInfinity => exact le_rfl
        | _ => cases le
    | notNumber => cases le
  nonneg x := by
    cases x with
    | number x => exact climb.nonneg x
    | plusInfinity => exact (climb.nonneg first).trans (climb.le_top first)
    | _ => exact le_rfl
  le_top x := by
    cases x with
    | number x => exact climb.le_top x
    | plusInfinity => exact le_rfl
    | _ => exact (climb.nonneg first).trans (climb.le_top first)
  arrives x arrived := by
    cases x with
    | number x => exact climb.arrives x ((number_le first x).mp arrived)
    | plusInfinity => rfl
    | _ => cases arrived

variable [IsStrictOrderedRing K]

/-! ### Straight flanks -/

/-- A straight line from a foot to the top. -/
def ramp (foot first x : K) : K :=
  if first ≤ x then 1 else if x ≤ foot then 0 else (x - foot) / (first - foot)

section Ramps

variable {foot first x y : K}

omit [IsStrictOrderedRing K] in
theorem ramp_of_le (arrived : first ≤ x) : ramp foot first x = 1 :=
  if_pos arrived

omit [IsStrictOrderedRing K] in
theorem ramp_of_foot (before : x < first) (low : x ≤ foot) : ramp foot first x = 0 := by
  rw [ramp, if_neg before.not_ge, if_pos low]

omit [IsStrictOrderedRing K] in
theorem ramp_between (before : x < first) (above : foot < x) :
    ramp foot first x = (x - foot) / (first - foot) := by
  rw [ramp, if_neg before.not_ge, if_neg above.not_ge]

theorem ramp_nonneg (foot first x : K) : 0 ≤ ramp foot first x := by
  unfold ramp
  split_ifs with arrived low
  · exact zero_le_one
  · exact le_rfl
  · have above := not_le.mp low
    exact div_nonneg (sub_nonneg.mpr above.le) (sub_nonneg.mpr (above.trans (not_le.mp arrived)).le)

theorem ramp_le_one (foot first x : K) : ramp foot first x ≤ 1 := by
  unfold ramp
  split_ifs with arrived low
  · exact le_rfl
  · exact zero_le_one
  · have before := not_le.mp arrived
    rw [div_le_one (sub_pos.mpr ((not_le.mp low).trans before))]
    exact sub_le_sub_right before.le foot

theorem ramp_mono (le : x ≤ y) : ramp foot first x ≤ ramp foot first y := by
  rcases le_or_gt first y with arrived | before
  · rw [ramp_of_le arrived]
    exact ramp_le_one foot first x
  rcases le_or_gt x foot with low | above
  · rw [ramp_of_foot (le.trans_lt before) low]
    exact ramp_nonneg foot first y
  · rw [ramp_between (le.trans_lt before) above, ramp_between before (above.trans_le le)]
    exact div_le_div_of_nonneg_right (sub_le_sub_right le foot)
      (sub_nonneg.mpr ((above.trans_le le).trans before).le)

theorem climb_ramp (foot first : K) : Climb (ramp foot first) first 1 where
  mono := ramp_mono
  nonneg := ramp_nonneg foot first
  le_top := ramp_le_one foot first
  arrives _ := ramp_of_le

/-- On the feet and outside them one of the lines has not begun, unless the top is there. -/
theorem min_ramps_outside {left leftTop rightTop right : K} (rising : left ≤ leftTop)
    (level : leftTop ≤ rightTop) (falling : rightTop ≤ right) (outside : x ≤ left ∨ right ≤ x)
    (beside : ¬(leftTop ≤ x ∧ x ≤ rightTop)) :
    min (ramp left leftTop x) (ramp (-right) (-rightTop) (-x)) = 0 := by
  rcases outside with low | high
  · have before : x < leftTop := by
      by_contra arrived
      exact beside ⟨not_lt.mp arrived, (low.trans rising).trans level⟩
    rw [ramp_of_foot before low, min_eq_left (ramp_nonneg _ _ _)]
  · have behind : rightTop < x := by
      by_contra arrived
      exact beside ⟨(level.trans falling).trans high, not_lt.mp arrived⟩
    rw [ramp_of_foot (neg_lt_neg behind) (neg_le_neg high), min_eq_right (ramp_nonneg _ _ _)]

end Ramps

/-! ### Flanks of bells -/

variable [Exponential K]

/-- The height of a bell. -/
def bellAt (mean sigma top x : K) : K :=
  top * Exponential.exponential (-((x - mean) * (x - mean)) / ((1 + 1) * sigma * sigma))

/-- The left flank of a bell. -/
def flank (mean sigma top x : K) : K :=
  if mean ≤ x then top else bellAt mean sigma top x

section Bells

variable {mean sigma top x y : K} (positive : 0 < sigma) (nonneg : 0 ≤ top)

omit [IsStrictOrderedRing K] in
theorem bellAt_mean (mean sigma top : K) : bellAt mean sigma top mean = top := by
  rw [bellAt, sub_self, zero_mul, neg_zero, zero_div, Exponential.exponential_zero, mul_one]

omit [IsStrictOrderedRing K] in
theorem bellAt_neg (mean sigma top x : K) :
    bellAt (-mean) sigma top (-x) = bellAt mean sigma top x := by
  rw [bellAt, bellAt, neg_sub_neg, ← neg_sub x mean, neg_mul_neg]

include nonneg in
theorem bellAt_nonneg : 0 ≤ bellAt mean sigma top x :=
  mul_nonneg nonneg (Exponential.exponential_pos _).le

include positive nonneg in
/-- A bell is higher nearer to its mean. -/
theorem bellAt_le_of_nearer (nearer : |y - mean| ≤ |x - mean|) :
    bellAt mean sigma top x ≤ bellAt mean sigma top y := by
  apply mul_le_mul_of_nonneg_left _ nonneg
  apply exponential_mono
  have squares : (y - mean) * (y - mean) ≤ (x - mean) * (x - mean) := by
    rw [← abs_mul_abs_self (y - mean), ← abs_mul_abs_self (x - mean)]
    exact mul_self_le_mul_self (abs_nonneg _) nearer
  exact div_le_div_of_nonneg_right (neg_le_neg squares) (by positivity)

include positive nonneg in
theorem bellAt_le_top : bellAt mean sigma top x ≤ top := by
  have nearest : |mean - mean| ≤ |x - mean| := by
    rw [sub_self, abs_zero]
    exact abs_nonneg _
  exact (bellAt_le_of_nearer positive nonneg nearest).trans_eq (bellAt_mean mean sigma top)

omit [IsStrictOrderedRing K] in
theorem flank_of_ge (arrived : mean ≤ x) : flank mean sigma top x = top :=
  if_pos arrived

omit [IsStrictOrderedRing K] in
/-- Before the mean and at it the flank is the bell. -/
theorem flank_of_le (before : x ≤ mean) : flank mean sigma top x = bellAt mean sigma top x := by
  unfold flank
  split_ifs with arrived
  · rw [le_antisymm before arrived, bellAt_mean]
  · rfl

include positive nonneg in
theorem flank_le_top : flank mean sigma top x ≤ top := by
  unfold flank
  split_ifs
  · exact le_rfl
  · exact bellAt_le_top positive nonneg

include positive nonneg in
theorem climb_flank : Climb (flank mean sigma top) mean top where
  mono {x y} le := by
    rcases le_total mean y with arrived | before
    · rw [flank_of_ge arrived]
      exact flank_le_top positive nonneg
    · rw [flank_of_le (le.trans before), flank_of_le before]
      apply bellAt_le_of_nearer positive nonneg
      rw [abs_sub_comm, abs_sub_comm x, abs_of_nonneg (sub_nonneg.mpr before),
        abs_of_nonneg (sub_nonneg.mpr (le.trans before))]
      exact sub_le_sub_left le mean
  nonneg x := by
    unfold flank
    split_ifs
    · exact nonneg
    · exact bellAt_nonneg nonneg
  le_top _ := flank_le_top positive nonneg
  arrives _ := flank_of_ge

/-- Behind the mean the bell is the mirror image of its left flank. -/
theorem flank_neg_of_ge (behind : mean ≤ x) :
    flank (-mean) sigma top (-x) = bellAt mean sigma top x := by
  rw [flank_of_le (neg_le_neg behind), bellAt_neg]

theorem flank_neg_of_le (before : x ≤ mean) : flank (-mean) sigma top (-x) = top :=
  flank_of_ge (neg_le_neg before)

include positive nonneg in
/-- A bell is the lower one of its flanks. -/
theorem min_flanks :
    min (flank mean sigma top x) (flank (-mean) sigma top (-x)) = bellAt mean sigma top x := by
  rcases le_total x mean with before | behind
  · rw [flank_of_le before, flank_neg_of_le before, min_eq_left (bellAt_le_top positive nonneg)]
  · rw [flank_of_ge behind, flank_neg_of_ge behind, min_eq_right (bellAt_le_top positive nonneg)]

end Bells

end Flanks

/-! ## Profiles -/

namespace Membership

variable {K : Type} [Field K] [LinearOrder K] [FloorSemiring K] [Exponential K]

/-- A shape is the lower one of two flanks, the second one mirrored. -/
structure Drawn (shape : Membership (Extended K)) (up down : Extended K → K)
    (first last top : K) : Prop where
  start : shape.topStart = number first
  stop : shape.topEnd = number last
  summit : shape.summit = number top
  ordered : first ≤ last
  low : top ≤ 1
  tall : 0 < top
  left : Climb up (number first) top
  right : Climb down (number (-last)) top
  height : ∀ x, x ≠ notNumber → shape.height? x = some (number (min (up x) (down (-x))))
  /-- On a shoulder both flanks have arrived at the top. -/
  shoulder : ∀ x, shape.OnShoulder x → x ≠ notNumber ∧ up x = top ∧ down (-x) = top
  /-- The top lies between the feet. -/
  between : ∀ foot other, shape.feet? = some (foot, other) →
    foot ≤ number first ∧ number last ≤ other
  /-- On the feet and outside them one of the flanks has not begun, unless the top is there. -/
  grounded : ∀ foot other, shape.feet? = some (foot, other) → ∀ x, x ≤ foot ∨ other ≤ x →
    ¬(number first ≤ x ∧ x ≤ number last) → min (up x) (down (-x)) = 0

namespace Drawn

variable {shape : Membership (Extended K)} {up down : Extended K → K} {first last top : K}
  (drawn : Drawn shape up down first last top) {x : Extended K}

include drawn

theorem height_eq (numeric : x ≠ notNumber) :
    shape.height x = number (min (up x) (down (-x))) :=
  height_of_height? (drawn.height x numeric)

theorem nonneg (x : Extended K) : 0 ≤ min (up x) (down (-x)) :=
  le_min (drawn.left.nonneg x) (drawn.right.nonneg (-x))

theorem le_top (x : Extended K) : min (up x) (down (-x)) ≤ top :=
  (min_le_left _ _).trans (drawn.left.le_top x)

theorem degree_eq (numeric : x ≠ notNumber) :
    shape.degree x = number (min (up x) (down (-x))) := by
  rw [degree, drawn.height_eq numeric, clampUnit_number,
    min_eq_right ((drawn.le_top x).trans drawn.low), max_eq_right (drawn.nonneg x)]

/-- From the start of the top on only the second flank counts. -/
theorem degree_behind (behind : number first ≤ x) : shape.degree x = number (down (-x)) := by
  rw [drawn.degree_eq (ne_notNumber_of_le behind).2, drawn.left.arrives x behind,
    min_eq_right (drawn.right.le_top (-x))]

/-- On the feet and outside them the top can only be at a foot that is an end of it. -/
theorem top_outside {foot other : Extended K} (feet : shape.feet? = some (foot, other))
    (outside : x ≤ foot ∨ other ≤ x) :
    (number first ≤ x ∧ x ≤ number last) ↔
      (x = foot ∧ foot = number first ∨ x = other ∧ other = number last) := by
  obtain ⟨rising, falling⟩ := drawn.between foot other feet
  have ordered : (number first : Extended K) ≤ number last := (number_le _ _).mpr drawn.ordered
  constructor
  · rintro ⟨behind, before⟩
    rcases outside with low | high
    · exact .inl ⟨Extended.le_antisymm low (Extended.le_trans rising behind),
        Extended.le_antisymm rising (Extended.le_trans behind low)⟩
    · exact .inr ⟨Extended.le_antisymm (Extended.le_trans before falling) high,
        Extended.le_antisymm (Extended.le_trans high before) falling⟩
  · rintro (⟨rfl, rfl⟩ | ⟨rfl, rfl⟩)
    · exact ⟨Extended.le_refl nofun, ordered⟩
    · exact ⟨ordered, Extended.le_refl nofun⟩

end Drawn

/-- Nothing is left of a bell at the infinities. -/
theorem mul_exp_minusInfinity (top : K) {y : K} (positive : 0 < y) :
    (number top * exp (minusInfinity / number y) : Extended K) = number 0 := by
  have quotient : (minusInfinity / number y : Extended K) = minusInfinity := if_neg positive.not_gt
  rw [quotient]
  exact congrArg number (mul_zero top)

theorem ratio?_number (x : Extended K) {y : K} (positive : 0 < y) :
    ratio? x (number y) = some (x / number y) :=
  if_pos ((number_lt 0 y).mpr positive)

variable [IsStrictOrderedRing K]

/-! ### Bells -/

section Bells

variable {mean sigma top : K} (positive : 0 < sigma) (tall : 0 < top) (low : top ≤ 1)

include positive

theorem bell?_eq (mean top : K) (x : Extended K) :
    bell? (number mean) (number sigma) (number top) x =
      some (number top * exp (-((x - number mean) * (x - number mean)) /
        number ((1 + 1) * sigma * sigma))) := by
  have wide : 0 < (1 + 1) * sigma * sigma := by positivity
  simp only [bell?, two_def, ← one_add_one_eq_two, number_mul, ratio?_number _ wide,
    Option.map_some]

include tall in
theorem climb_bell (mean : K) :
    Climb (unending (flank mean sigma top) top) (number mean) top :=
  climb_unending (climb_flank positive tall.le)

include tall in
/-- A bell is the lower one of its flanks, and it ends at the infinities. -/
theorem bell?_eq_min {x : Extended K} (numeric : x ≠ notNumber) :
    bell? (number mean) (number sigma) (number top) x =
      some (number (min (unending (flank mean sigma top) top x)
        (unending (flank (-mean) sigma top) top (-x)))) := by
  have wide : 0 < (1 + 1) * sigma * sigma := by positivity
  -- both infinities are squared to `∞`, and `-∞` stays what it is when divided
  have nothing := mul_exp_minusInfinity top wide
  rw [bell?_eq positive]
  cases x with
  | number x =>
      simp only [number_sub, number_mul, number_neg, number_div _ wide.ne', exp_def]
      exact congrArg (fun h => some (number h)) (min_flanks positive tall.le).symm
  | minusInfinity =>
      exact congrArg some (nothing.trans (congrArg number (min_eq_left tall.le).symm))
  | plusInfinity =>
      exact congrArg some (nothing.trans (congrArg number (min_eq_right tall.le).symm))
  | notNumber => exact absurd rfl numeric

include tall low

theorem drawn_gaussian :
    Drawn (.gaussian (number mean) (number sigma) (number top))
      (unending (flank mean sigma top) top) (unending (flank (-mean) sigma top) top)
      mean mean top where
  start := rfl
  stop := rfl
  summit := rfl
  ordered := le_rfl
  low := low
  tall := tall
  left := climb_bell positive tall _
  right := climb_bell positive tall _
  height _ := bell?_eq_min positive tall
  shoulder _ := False.elim
  between := nofun
  grounded := nofun

theorem drawn_lowShoulder :
    Drawn (.lowShoulder (number mean) (number sigma) (number top)) (fun _ => top)
      (unending (flank (-mean) sigma top) top) mean mean top where
  start := rfl
  stop := rfl
  summit := rfl
  ordered := le_rfl
  low := low
  tall := tall
  left := climb_const _ tall.le
  right := climb_bell positive tall _
  height x numeric := by
    have left := climb_bell positive tall mean
    have right := climb_bell positive tall (-mean)
    have finite : (number mean : Extended K) ≠ notNumber := nofun
    rw [height?, bell?_eq_min positive tall numeric, min_eq_right (right.le_top (-x))]
    split_ifs with before
    · rw [right.arrives (-x) (Extended.neg_le_neg (Extended.le_of_lt before))]
    · rw [left.arrives x ((Extended.not_lt numeric finite).mp before),
        min_eq_right (right.le_top (-x))]
  shoulder x before :=
    ⟨(ne_notNumber_of_le before).1, rfl, (climb_bell positive tall _).arrives (-x)
      (Extended.neg_le_neg before)⟩
  between := nofun
  grounded := nofun

theorem drawn_highShoulder :
    Drawn (.highShoulder (number mean) (number sigma) (number top))
      (unending (flank mean sigma top) top) (fun _ => top) mean mean top where
  start := rfl
  stop := rfl
  summit := rfl
  ordered := le_rfl
  low := low
  tall := tall
  left := climb_bell positive tall _
  right := climb_const _ tall.le
  height x numeric := by
    have left := climb_bell positive tall mean
    have right := climb_bell positive tall (-mean)
    have finite : (number mean : Extended K) ≠ notNumber := nofun
    rw [height?, bell?_eq_min positive tall numeric, min_eq_left (left.le_top x)]
    split_ifs with behind
    · rw [left.arrives x (Extended.le_of_lt behind)]
    · have before := (Extended.not_lt finite numeric).mp behind
      rw [right.arrives (-x) (Extended.neg_le_neg before), min_eq_left (left.le_top x)]
  shoulder x behind :=
    ⟨(ne_notNumber_of_le behind).2, (climb_bell positive tall _).arrives x behind, rfl⟩
  between := nofun
  grounded := nofun

end Bells

/-! ### Trapezoids and triangles -/

section Trapezoids

variable {left leftTop rightTop right : K} (rising : left ≤ leftTop) (level : leftTop ≤ rightTop)
  (falling : rightTop ≤ right)

include rising level falling

theorem trapezoid?_number (x : K) :
    trapezoid? (number left) (number leftTop) (number rightTop) (number right) (number x) =
      some (number (min (ramp left leftTop x) (ramp (-right) (-rightTop) (-x)))) := by
  simp only [trapezoid?, number_le, number_lt, number_sub]
  split_ifs with inside outside ascending
  · rw [ramp_of_le inside.1, ramp_of_le (neg_le_neg inside.2), min_self]
    rfl
  · rw [min_ramps_outside rising level falling outside inside]
    rfl
  · have above : left < x := not_le.mp fun low => outside (.inl low)
    have apart := sub_pos.mpr (above.trans ascending)
    rw [ratio?_number _ apart, number_div _ apart.ne', ← ramp_between ascending above,
      ramp_of_le (neg_le_neg (ascending.le.trans level)), min_eq_left (ramp_le_one _ _ _)]
  · have below : x < right := not_le.mp fun high => outside (.inr high)
    have descending : rightTop < x := not_le.mp fun arrived =>
      inside ⟨not_lt.mp ascending, arrived⟩
    have apart := sub_pos.mpr (descending.trans below)
    have line := ramp_between (neg_lt_neg descending) (neg_lt_neg below)
    rw [neg_sub_neg, neg_sub_neg] at line
    rw [ratio?_number _ apart, number_div _ apart.ne', ← line,
      ramp_of_le (not_lt.mp ascending), min_eq_right (ramp_le_one _ _ _)]

theorem trapezoid?_eq_min {x : Extended K} (numeric : x ≠ notNumber) :
    trapezoid? (number left) (number leftTop) (number rightTop) (number right) x =
      some (number (min (unending (ramp left leftTop) 1 x)
        (unending (ramp (-right) (-rightTop)) 1 (-x)))) := by
  cases x with
  | number x => exact trapezoid?_number rising level falling x
  | minusInfinity => exact congrArg (fun h => some (number h)) (min_eq_left zero_le_one).symm
  | plusInfinity => exact congrArg (fun h => some (number h)) (min_eq_right zero_le_one).symm
  | notNumber => exact absurd rfl numeric

theorem drawn_trapezoidal :
    Drawn (.trapezoidal (number left) (number leftTop) (number rightTop) (number right))
      (unending (ramp left leftTop) 1) (unending (ramp (-right) (-rightTop)) 1)
      leftTop rightTop 1 where
  start := rfl
  stop := rfl
  summit := rfl
  ordered := level
  low := le_rfl
  tall := zero_lt_one
  left := climb_unending (climb_ramp left leftTop)
  right := climb_unending (climb_ramp (-right) (-rightTop))
  height _ := trapezoid?_eq_min rising level falling
  shoulder _ := False.elim
  between foot other feet := by
    cases feet
    exact ⟨(number_le left leftTop).mpr rising, (number_le rightTop right).mpr falling⟩
  grounded foot other feet x outside beside := by
    cases feet
    cases x with
    | number x =>
        simp only [number_le] at outside beside
        exact min_ramps_outside rising level falling outside beside
    | minusInfinity => exact min_eq_left zero_le_one
    | plusInfinity => exact min_eq_right zero_le_one
    | notNumber => rcases outside with low | high <;> contradiction

end Trapezoids

/-- A triangle is a trapezoid whose top is one point. -/
theorem triangle?_eq_trapezoid? (left peak right : K) (x : Extended K) :
    triangle? (number left) (number peak) (number right) x =
      trapezoid? (number left) (number peak) (number peak) (number right) x := by
  cases x with
  | number x =>
      have same : Same (number x : Extended K) (number peak) ↔ peak ≤ x ∧ x ≤ peak := by
        rw [Same, number_le, number_le]
        exact and_comm
      simp only [triangle?, trapezoid?, same, number_le, number_lt, number_sub]
      by_cases apex : peak ≤ x ∧ x ≤ peak
      · rw [if_pos apex, if_pos apex]
        split_ifs with outside before
        · rfl
        · have above : left < peak := (not_le.mp fun low => outside (.inl low)).trans_le apex.2
          have apart := sub_pos.mpr above
          rw [le_antisymm apex.2 apex.1, ratio?_number _ apart, number_div _ apart.ne',
            div_self apart.ne']
          rfl
        · exact absurd apex.2 before
      · rw [if_neg apex, if_neg apex]
        have strict : x ≤ peak ↔ x < peak :=
          ⟨fun le => lt_of_not_ge fun ge => apex ⟨ge, le⟩, le_of_lt⟩
        simp only [strict]
  | _ => rfl

theorem drawn_triangular {left peak right : K} (rising : left ≤ peak) (falling : peak ≤ right) :
    Drawn (.triangular (number left) (number peak) (number right))
      (unending (ramp left peak) 1) (unending (ramp (-right) (-peak)) 1) peak peak 1 :=
  have whole := drawn_trapezoidal rising le_rfl falling
  { whole with
    height := fun x numeric =>
      (triangle?_eq_trapezoid? left peak right x).trans (whole.height x numeric)
    shoulder := fun _ => False.elim }

/-- Every shape that passes its checks is drawn by two flanks. -/
theorem exists_drawn {shape : Membership (Extended K)} (checked : shape.check = .ok ()) :
    ∃ up down first last top, Drawn shape up down first last top := by
  cases shape with
  | gaussian mean sigma top =>
      rcases numbers_of_checkBell checked with ⟨m, s, t, rfl, rfl, rfl, positive, tall, low⟩
      exact ⟨_, _, _, _, _, drawn_gaussian positive tall low⟩
  | lowShoulder mean sigma top =>
      rcases numbers_of_checkBell checked with ⟨m, s, t, rfl, rfl, rfl, positive, tall, low⟩
      exact ⟨_, _, _, _, _, drawn_lowShoulder positive tall low⟩
  | highShoulder mean sigma top =>
      rcases numbers_of_checkBell checked with ⟨m, s, t, rfl, rfl, rfl, positive, tall, low⟩
      exact ⟨_, _, _, _, _, drawn_highShoulder positive tall low⟩
  | triangular left peak right =>
      rcases numbers_of_check_triangular checked with ⟨l, p, r, rfl, rfl, rfl, rising, falling⟩
      exact ⟨_, _, _, _, _, drawn_triangular rising falling⟩
  | trapezoidal left leftTop rightTop right =>
      rcases numbers_of_check_trapezoidal checked with
        ⟨l, lt, rt, r, rfl, rfl, rfl, rfl, rising, level, falling⟩
      exact ⟨_, _, _, _, _, drawn_trapezoidal rising level falling⟩

/-- A shape that passes its checks has a number as its height at every number. -/
theorem height_number {shape : Membership (Extended K)} (checked : shape.check = .ok ()) (x : K) :
    ∃ h, shape.height (number x) = number h := by
  obtain ⟨up, down, first, last, top, drawn⟩ := exists_drawn checked
  exact ⟨_, drawn.height_eq nofun⟩

theorem degree_number {shape : Membership (Extended K)} (checked : shape.check = .ok ()) (x : K) :
    ∃ d, shape.degree (number x) = number d := by
  obtain ⟨up, down, first, last, top, drawn⟩ := exists_drawn checked
  exact ⟨_, drawn.degree_eq nofun⟩

/-! ## Proper shapes -/

/-- A proper fuzzy set: the height is a degree without being clamped, and nothing is divided by
what is not positive on the way to it; the degree rises up to the top, is highest there, and
falls behind it. -/
structure Proper (shape : Membership (Extended K)) : Prop where
  height : ∀ x, x ≠ notNumber →
    shape.height? x = some (shape.height x) ∧ 0 ≤ shape.height x ∧ shape.height x ≤ 1 ∧
      shape.degree x = shape.height x
  spans : ∃ first last : K, first ≤ last ∧
    shape.topStart = number first ∧ shape.topEnd = number last
  rises : ∀ x y, x ≤ y → y ≤ shape.topStart → shape.degree x ≤ shape.degree y
  falls : ∀ x y, shape.topEnd ≤ x → x ≤ y → shape.degree y ≤ shape.degree x
  top : ∀ x, shape.topStart ≤ x → x ≤ shape.topEnd → shape.degree x = shape.summit
  highest : ∀ x, x ≠ notNumber → shape.degree x ≤ shape.summit
  shoulder : ∀ x, shape.OnShoulder x → shape.degree x = shape.summit
  /-- A foot is no part of the shape unless it is an end of the top. -/
  feet : ∀ left right, shape.feet? = some (left, right) → ∀ x, x ≤ left ∨ right ≤ x →
    (shape.degree x = 0 ↔
      ¬(x = left ∧ left = shape.topStart ∨ x = right ∧ right = shape.topEnd))

namespace Drawn

variable {shape : Membership (Extended K)} {up down : Extended K → K} {first last top : K}
  (drawn : Drawn shape up down first last top) {x y : Extended K}

include drawn

/-- Up to the end of the top only the first flank counts. -/
theorem degree_before (before : x ≤ number last) : shape.degree x = number (up x) := by
  rw [drawn.degree_eq (ne_notNumber_of_le before).1,
    drawn.right.arrives (-x) (Extended.neg_le_neg before), min_eq_left (drawn.left.le_top x)]

theorem degree_top (behind : number first ≤ x) (before : x ≤ number last) :
    shape.degree x = number top := by
  rw [drawn.degree_before before, drawn.left.arrives x behind]

theorem rises (le : x ≤ y) (before : y ≤ number first) : shape.degree x ≤ shape.degree y := by
  have ordered : (number first : Extended K) ≤ number last := (number_le _ _).mpr drawn.ordered
  have before := Extended.le_trans before ordered
  rw [drawn.degree_before before, drawn.degree_before (Extended.le_trans le before), number_le]
  exact drawn.left.mono le

theorem falls (behind : number last ≤ x) (le : x ≤ y) : shape.degree y ≤ shape.degree x := by
  have ordered : (number first : Extended K) ≤ number last := (number_le _ _).mpr drawn.ordered
  have behind := Extended.le_trans ordered behind
  rw [drawn.degree_behind behind, drawn.degree_behind (Extended.le_trans behind le), number_le]
  exact drawn.right.mono (Extended.neg_le_neg le)

/-- On the feet and outside them the degree is zero, and not so where the top is. -/
theorem degree_outside {foot other : Extended K} (feet : shape.feet? = some (foot, other))
    (outside : x ≤ foot ∨ other ≤ x) :
    shape.degree x = 0 ↔ ¬(number first ≤ x ∧ x ≤ number last) := by
  constructor
  · rintro nothing ⟨behind, before⟩
    rw [drawn.degree_top behind before] at nothing
    exact drawn.tall.ne' (Extended.number.inj nothing)
  · intro beside
    have numeric : x ≠ notNumber := by
      rcases outside with low | high
      · exact (ne_notNumber_of_le low).1
      · exact (ne_notNumber_of_le high).2
    rw [drawn.degree_eq numeric, drawn.grounded foot other feet x outside beside]
    rfl

theorem proper : shape.Proper where
  height x numeric := by
    rw [drawn.degree_eq numeric, drawn.height_eq numeric]
    refine ⟨drawn.height x numeric, (number_le 0 _).mpr (drawn.nonneg x), ?_, rfl⟩
    exact (number_le _ 1).mpr ((drawn.le_top x).trans drawn.low)
  spans := ⟨first, last, drawn.ordered, drawn.start, drawn.stop⟩
  rises x y le before := drawn.rises le (drawn.start ▸ before)
  falls x y behind le := drawn.falls (drawn.stop ▸ behind) le
  top x behind before := by
    rw [drawn.summit]
    exact drawn.degree_top (drawn.start ▸ behind) (drawn.stop ▸ before)
  highest x numeric := by
    rw [drawn.summit, drawn.degree_eq numeric]
    exact (number_le _ _).mpr (drawn.le_top x)
  shoulder x saturated := by
    obtain ⟨numeric, arrived, staying⟩ := drawn.shoulder x saturated
    rw [drawn.summit, drawn.degree_eq numeric, arrived, staying, min_self]
  feet foot other feet x outside := by
    rw [drawn.degree_outside feet outside, drawn.top_outside feet outside, drawn.start, drawn.stop]

end Drawn

/-- Every shape that passes its checks is a proper fuzzy set. -/
theorem proper_of_accepted {term : String} {shape : Membership (Extended K)}
    (accepted : shape.validate term = .ok ()) : shape.Proper := by
  obtain ⟨up, down, first, last, top, drawn⟩ := exists_drawn (check_of_validate accepted)
  exact drawn.proper

/-- A trapezoid without a rising side, whose left foot belongs to its top. -/
def ledge : Membership (Extended ℚ) :=
  .trapezoidal 0 0 (number (1 / 2)) 1

theorem proper_of_accepted_ledge :
    ledge.validate "LOW" = .ok () ∧ ledge.Proper ∧ ledge.degree 0 = 1 ∧
      ledge.degree 1 = 0 ∧ ∀ x : ℚ, 0 < x → ledge.degree (number (-x)) = 0 := by
  have accepted : ledge.validate "LOW" = .ok () := validate_of_check (by decide +kernel)
  have proper := proper_of_accepted accepted
  have feet := proper.feet 0 1 rfl
  refine ⟨accepted, proper, ?_, ?_, fun x positive => ?_⟩
  · exact proper.top 0 (by decide +kernel) (by decide +kernel)
  · exact (feet 1 (by decide +kernel)).mpr (by decide +kernel)
  · have outside : (number (-x) : Extended ℚ) ≤ 0 := (number_le (-x) 0).mpr (by linarith)
    refine (feet _ (.inl outside)).mpr ?_
    rintro (⟨same, _⟩ | ⟨same, _⟩)
    · linarith [Extended.number.inj same]
    · linarith [Extended.number.inj same]

end Membership

end Handover.Fuzzy
