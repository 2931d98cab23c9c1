import Handover.Numeric.Scalar
import Mathlib.Algebra.Order.Field.Basic
import Mathlib.Algebra.Order.Floor.Semiring
import Mathlib.Analysis.SpecialFunctions.Exp
import Mathlib.Data.Rat.Floor
import Mathlib.Tactic.FieldSimp
import Mathlib.Tactic.Linarith
import Mathlib.Tactic.Positivity

/-!
# Exact arithmetic

The scalars with unrounded arithmetic: the numbers of an ordered field, the two
infinities and a value that is not a number.  Infinities and the last value
follow the rules of binary floating point; zero has one sign only.

The field needs an exponential.  The reals have the usual one.  On the
rationals a stand-in with the same order properties serves closed examples.
-/

namespace Handover

/-- An exponential on an ordered field, as far as membership functions depend
on it. -/
class Exponential (K : Type) [Field K] [LinearOrder K] where
  exponential : K → K
  exponential_zero : exponential 0 = 1
  exponential_pos : ∀ x, 0 < exponential x
  exponential_strictMono : ∀ {x y}, x < y → exponential x < exponential y

theorem exponential_mono {K : Type} [Field K] [LinearOrder K] [Exponential K] {x y : K}
    (le : x ≤ y) : Exponential.exponential x ≤ Exponential.exponential y := by
  rcases le.eq_or_lt with rfl | less
  · exact le_rfl
  · exact (Exponential.exponential_strictMono less).le

noncomputable instance : Exponential ℝ where
  exponential := Real.exp
  exponential_zero := Real.exp_zero
  exponential_pos := Real.exp_pos
  exponential_strictMono := Real.exp_lt_exp.mpr

/-- A rational curve that ascends through `1` at zero. -/
def ascent (x : ℚ) : ℚ :=
  if x < 0 then 1 / (1 - x) else 1 + x

theorem ascent_pos (x : ℚ) : 0 < ascent x := by
  unfold ascent
  split
  · next negative =>
    have : 0 < 1 - x := by linarith
    positivity
  · linarith

theorem ascent_strictMono {x y : ℚ} (below : x < y) : ascent x < ascent y := by
  unfold ascent
  split
  · next negative =>
    split
    · exact one_div_lt_one_div_of_lt (by linarith) (by linarith)
    · have : 1 / (1 - x) < 1 := by
        rw [div_lt_one (by linarith)]
        linarith
      linarith
  · split <;> linarith

instance : Exponential ℚ where
  exponential := ascent
  exponential_zero := by norm_num [ascent]
  exponential_pos := ascent_pos
  exponential_strictMono := ascent_strictMono

/-- The numbers `K`, the infinities and a value that is not a number. -/
inductive Extended (K : Type) where
  | number (x : K)
  | minusInfinity
  | plusInfinity
  | notNumber
deriving DecidableEq, Repr

namespace Extended

section Arithmetic

variable {K : Type} [Field K] [LinearOrder K]

/-- The infinity with the sign of a number. -/
def infinity (x : K) : Extended K :=
  if 0 < x then plusInfinity else if x < 0 then minusInfinity else notNumber

def neg : Extended K → Extended K
  | number x => number (-x)
  | minusInfinity => plusInfinity
  | plusInfinity => minusInfinity
  | notNumber => notNumber

def add : Extended K → Extended K → Extended K
  | number x, number y => number (x + y)
  | number _, y => y
  | x, number _ => x
  | minusInfinity, minusInfinity => minusInfinity
  | plusInfinity, plusInfinity => plusInfinity
  | _, _ => notNumber

def mul : Extended K → Extended K → Extended K
  | number x, number y => number (x * y)
  | notNumber, _ => notNumber
  | _, notNumber => notNumber
  | number x, plusInfinity => infinity x
  | number x, minusInfinity => infinity (-x)
  | plusInfinity, number y => infinity y
  | minusInfinity, number y => infinity (-y)
  | plusInfinity, plusInfinity => plusInfinity
  | minusInfinity, minusInfinity => plusInfinity
  | plusInfinity, minusInfinity => minusInfinity
  | minusInfinity, plusInfinity => minusInfinity

def div : Extended K → Extended K → Extended K
  | number x, number y => if y = 0 then infinity x else number (x / y)
  | number _, plusInfinity => number 0
  | number _, minusInfinity => number 0
  | plusInfinity, number y => if y < 0 then minusInfinity else plusInfinity
  | minusInfinity, number y => if y < 0 then plusInfinity else minusInfinity
  | _, _ => notNumber

def below : Extended K → Extended K → Bool
  | number x, number y => x < y
  | number _, plusInfinity => true
  | minusInfinity, number _ => true
  | minusInfinity, plusInfinity => true
  | _, _ => false

def notAbove : Extended K → Extended K → Bool
  | number x, number y => x ≤ y
  | number _, plusInfinity => true
  | minusInfinity, number _ => true
  | minusInfinity, minusInfinity => true
  | minusInfinity, plusInfinity => true
  | plusInfinity, plusInfinity => true
  | _, _ => false

def exponential [Exponential K] : Extended K → Extended K
  | number x => number (Exponential.exponential x)
  | minusInfinity => number 0
  | plusInfinity => plusInfinity
  | notNumber => notNumber

def isNumber : Extended K → Bool
  | number _ => true
  | _ => false

/-- The natural number nearest to a number, halves going up. -/
def rounded [FloorSemiring K] : Extended K → Nat
  | number x => ⌊x + 1 / 2⌋₊
  | _ => 0

end Arithmetic

/-- The number half way between two numbers. -/
def middle {K : Type} [Field K] (x y : K) : K :=
  (x + y) / 2

variable {K : Type} [Field K] [LinearOrder K] [FloorSemiring K] [Exponential K]

instance : Scalar (Extended K) where
  zero := number 0
  one := number 1
  add := add
  sub x y := add x (neg y)
  mul := mul
  div := div
  neg := neg
  lt x y := below x y
  le x y := notAbove x y
  decLt x y := inferInstanceAs (Decidable (below x y = true))
  decLe x y := inferInstanceAs (Decidable (notAbove x y = true))
  ofDecimal digits places := number (digits / 10 ^ places)
  mulAdd x y z := add (mul x y) z
  exp := exponential
  isNaN x := x = notNumber
  isFinite := isNumber
  nearest := rounded

/-! ## Numbers -/

theorem zero_def : (0 : Extended K) = number 0 := rfl

theorem one_def : (1 : Extended K) = number 1 := rfl

theorem le_def (x y : Extended K) : x ≤ y ↔ notAbove x y = true := Iff.rfl

theorem lt_def (x y : Extended K) : x < y ↔ below x y = true := Iff.rfl

theorem isNaN_def (x : Extended K) : Scalar.isNaN x = decide (x = notNumber) := rfl

theorem isFinite_iff (x : Extended K) : Scalar.isFinite x = true ↔ ∃ n, x = number n := by
  cases x <;> simp [Scalar.isFinite, isNumber]

@[simp]
theorem isFinite_number (x : K) : Scalar.isFinite (number x : Extended K) = true := rfl

@[simp]
theorem number_add (x y : K) : (number x + number y : Extended K) = number (x + y) := rfl

@[simp]
theorem number_neg (x : K) : (-number x : Extended K) = number (-x) := rfl

@[simp]
theorem number_sub (x y : K) : (number x - number y : Extended K) = number (x - y) :=
  congrArg number (sub_eq_add_neg x y).symm

@[simp]
theorem number_mul (x y : K) : (number x * number y : Extended K) = number (x * y) := rfl

theorem number_div (x : K) {y : K} (nonzero : y ≠ 0) :
    (number x / number y : Extended K) = number (x / y) :=
  if_neg nonzero

@[simp]
theorem number_lt (x y : K) : (number x : Extended K) < number y ↔ x < y := by
  simp [lt_def, below]

@[simp]
theorem number_le (x y : K) : (number x : Extended K) ≤ number y ↔ x ≤ y := by
  simp [le_def, notAbove]

theorem ofDecimal_def (digits : Int) (places : Nat) :
    (Scalar.ofDecimal digits places : Extended K) = number ((digits : K) / 10 ^ places) := rfl

theorem ofNat_def (n : Nat) : (Scalar.ofNat n : Extended K) = number (n : K) := by
  simp [Scalar.ofNat, ofDecimal_def]

theorem two_def : (Scalar.two : Extended K) = number 2 :=
  ofNat_def 2

theorem exp_def (x : K) :
    Scalar.exp (number x : Extended K) = number (Exponential.exponential x) := rfl

/-! ## Order

The order is total on everything but the value that is not a number. -/

theorem ne_notNumber_of_le {x y : Extended K} (le : x ≤ y) :
    x ≠ notNumber ∧ y ≠ notNumber := by
  cases x <;> cases y <;> simp_all [le_def, notAbove]

protected theorem le_refl {x : Extended K} (numeric : x ≠ notNumber) : x ≤ x := by
  cases x <;> simp_all [le_def, notAbove]

protected theorem le_trans {x y z : Extended K} (first : x ≤ y) (second : y ≤ z) : x ≤ z := by
  cases x <;> cases y <;> cases z <;> simp_all [le_def, notAbove]
  exact first.trans second

protected theorem le_antisymm {x y : Extended K} (first : x ≤ y) (second : y ≤ x) : x = y := by
  cases x <;> cases y <;> simp_all [le_def, notAbove]
  exact first.antisymm second

protected theorem not_lt {x y : Extended K} (first : x ≠ notNumber) (second : y ≠ notNumber) :
    ¬ x < y ↔ y ≤ x := by
  cases x <;> cases y <;> simp_all [le_def, lt_def, below, notAbove]

protected theorem le_of_lt {x y : Extended K} (less : x < y) : x ≤ y := by
  cases x <;> cases y <;> simp_all [le_def, lt_def, below, notAbove]
  exact less.le

theorem lesser_eq (x y : Extended K) :
    Scalar.lesser x y = x ∧ (x ≤ y ∨ y = notNumber) ∨
      Scalar.lesser x y = y ∧ (y ≤ x ∨ x = notNumber) := by
  unfold Scalar.lesser
  by_cases less : x < y
  · exact .inl ⟨if_pos less, .inl (Extended.le_of_lt less)⟩
  rw [if_neg less, isNaN_def]
  by_cases second : y = notNumber
  · exact .inl ⟨by simp [second], .inr second⟩
  refine .inr ⟨by simp [second], ?_⟩
  by_cases first : x = notNumber
  · exact .inr first
  · exact .inl ((Extended.not_lt first second).mp less)

theorem greater_eq (x y : Extended K) :
    Scalar.greater x y = x ∧ (y ≤ x ∨ y = notNumber) ∨
      Scalar.greater x y = y ∧ (x ≤ y ∨ x = notNumber) := by
  unfold Scalar.greater
  by_cases less : y < x
  · exact .inl ⟨if_pos less, .inl (Extended.le_of_lt less)⟩
  rw [if_neg less, isNaN_def]
  by_cases second : y = notNumber
  · exact .inl ⟨by simp [second], .inr second⟩
  refine .inr ⟨by simp [second], ?_⟩
  by_cases first : x = notNumber
  · exact .inr first
  · exact .inl ((Extended.not_lt second first).mp less)

theorem greater_eq_left {x y : Extended K} (le : y ≤ x) : Scalar.greater x y = x := by
  rcases greater_eq x y with ⟨same, _⟩ | ⟨same, above | missing⟩
  · exact same
  · rw [same, Extended.le_antisymm le above]
  · exact absurd missing (ne_notNumber_of_le le).2

theorem greater_eq_right {x y : Extended K} (le : x ≤ y) : Scalar.greater x y = y := by
  rcases greater_eq x y with ⟨same, above | missing⟩ | ⟨same, _⟩
  · rw [same, Extended.le_antisymm le above]
  · exact absurd missing (ne_notNumber_of_le le).2
  · exact same

theorem lesser_number (x y : K) : Scalar.lesser (number x) (number y) = number (min x y) := by
  rcases lt_or_ge x y with less | notLess
  · rw [min_eq_left less.le]
    exact if_pos ((number_lt x y).mpr less)
  · rw [min_eq_right notLess]
    exact if_neg (mt (number_lt x y).mp notLess.not_gt)

theorem greater_number (x y : K) : Scalar.greater (number x) (number y) = number (max x y) := by
  rcases lt_or_ge y x with less | notLess
  · rw [max_eq_left less.le]
    exact if_pos ((number_lt y x).mpr less)
  · rw [max_eq_right notLess]
    exact if_neg (mt (number_lt y x).mp notLess.not_gt)

theorem lesser_le {x y : Extended K} (first : x ≠ notNumber) (second : y ≠ notNumber) :
    Scalar.lesser x y ≤ x ∧ Scalar.lesser x y ≤ y := by
  rcases lesser_eq x y with ⟨equal, below | missing⟩ | ⟨equal, below | missing⟩
  · rw [equal]
    exact ⟨Extended.le_refl first, below⟩
  · exact absurd missing second
  · rw [equal]
    exact ⟨below, Extended.le_refl second⟩
  · exact absurd missing first

theorem le_greater {x y : Extended K} (first : x ≠ notNumber) (second : y ≠ notNumber) :
    x ≤ Scalar.greater x y ∧ y ≤ Scalar.greater x y := by
  rcases greater_eq x y with ⟨equal, above | missing⟩ | ⟨equal, above | missing⟩
  · rw [equal]
    exact ⟨Extended.le_refl first, above⟩
  · exact absurd missing second
  · rw [equal]
    exact ⟨above, Extended.le_refl second⟩
  · exact absurd missing first

theorem le_greater_left {level x : Extended K} (le : level ≤ x) (y : Extended K) :
    level ≤ Scalar.greater x y := by
  rcases greater_eq x y with ⟨equal, _⟩ | ⟨equal, above | missing⟩
  · rwa [equal]
  · rw [equal]
    exact Extended.le_trans le above
  · exact absurd missing (ne_notNumber_of_le le).2

theorem le_greater_right {level y : Extended K} (x : Extended K) (le : level ≤ y) :
    level ≤ Scalar.greater x y := by
  rcases greater_eq x y with ⟨equal, above | missing⟩ | ⟨equal, _⟩
  · rw [equal]
    exact Extended.le_trans le above
  · exact absurd missing (ne_notNumber_of_le le).2
  · rwa [equal]

theorem le_lesser {level x y : Extended K} (first : level ≤ x) (second : level ≤ y) :
    level ≤ Scalar.lesser x y := by
  rcases lesser_eq x y with ⟨equal, _⟩ | ⟨equal, _⟩
  · rwa [equal]
  · rwa [equal]

/-- A chain of choices of the greater value reaches what one of its values reaches. -/
theorem le_foldl_greater {level start : Extended K} {xs : List (Extended K)}
    (reached : level ≤ start ∨ ∃ x ∈ xs, level ≤ x) : level ≤ xs.foldl Scalar.greater start := by
  induction xs generalizing start with
  | nil => exact reached.resolve_right nofun
  | cons x rest ih =>
      rw [List.exists_mem_cons_iff] at reached
      rcases reached with before | here | later
      · exact ih (.inl (le_greater_left before x))
      · exact ih (.inl (le_greater_right start here))
      · exact ih (.inr later)

theorem greater_nonneg {x : Extended K} (nonneg : 0 ≤ x) (y : Extended K) :
    0 ≤ Scalar.greater x y :=
  le_greater_left nonneg y

theorem nonneg_iff (x : Extended K) :
    0 ≤ x ↔ x = plusInfinity ∨ ∃ n, 0 ≤ n ∧ x = number n := by
  rw [zero_def]
  cases x <;> simp [le_def, notAbove]

/-! ## Sums -/

theorem ne_notNumber_of_add {x : Extended K} {y : K} (numeric : x + number y ≠ notNumber) :
    x ≠ notNumber := by
  rintro rfl
  exact numeric rfl

variable [IsStrictOrderedRing K]

protected theorem add_nonneg {x y : Extended K} (first : 0 ≤ x) (second : 0 ≤ y) : 0 ≤ x + y := by
  rw [nonneg_iff] at *
  rcases first with rfl | ⟨m, _, rfl⟩ <;> rcases second with rfl | ⟨n, _, rfl⟩
  · exact .inl rfl
  · exact .inl rfl
  · exact .inl rfl
  · exact .inr ⟨m + n, by positivity, rfl⟩

theorem add_le_add_number {x y : Extended K} (le : x ≤ y) (z : K) :
    x + number z ≤ y + number z := by
  cases x with
  | number x =>
      cases y with
      | number y => simpa using le
      | plusInfinity => rfl
      | minusInfinity => cases le
      | notNumber => cases le
  | plusInfinity =>
      cases y with
      | plusInfinity => rfl
      | _ => cases le
  | minusInfinity =>
      cases y with
      | notNumber => cases le
      | _ => rfl
  | notNumber => cases le

protected theorem neg_le_neg {x y : Extended K} (le : x ≤ y) : -y ≤ -x := by
  cases x with
  | number x =>
      cases y with
      | number y => exact (number_le (-y) (-x)).mpr (neg_le_neg ((number_le x y).mp le))
      | plusInfinity => rfl
      | _ => cases le
  | plusInfinity =>
      cases y with
      | plusInfinity => rfl
      | _ => cases le
  | minusInfinity =>
      cases y with
      | notNumber => cases le
      | _ => rfl
  | notNumber => cases le

/-- Nothing lies above its sum with a number that is not negative. -/
theorem not_add_lt (x : Extended K) {y : K} (nonneg : 0 ≤ y) : ¬ x + number y < x := by
  cases x with
  | number x => simpa using nonneg
  | _ => exact Bool.false_ne_true

theorem le_add_number {x : Extended K} (numeric : x ≠ notNumber) {y : K} (nonneg : 0 ≤ y) :
    x ≤ x + number y := by
  cases x with
  | number x => simpa using nonneg
  | notNumber => exact absurd rfl numeric
  | _ => rfl

theorem half_double (x : Extended K) : (x + x) / Scalar.two = x := by
  rw [two_def]
  cases x with
  | number x => rw [number_add, number_div _ two_ne_zero, add_self_div_two]
  | plusInfinity => exact if_neg (by norm_num)
  | minusInfinity => exact if_neg (by norm_num)
  | notNumber => rfl

theorem epsilon_def : (Scalar.epsilon : Extended K) = number (1 / 2 ^ 52) := by
  have cast : ((Nat.pow 2 52 : Nat) : K) = 2 ^ 52 := Nat.cast_pow 2 52
  rw [Scalar.epsilon, ofNat_def, cast, one_def, number_div _ (by positivity)]

theorem magnitude_number (x : K) : Scalar.magnitude (number x : Extended K) = number |x| := by
  rcases lt_or_ge x 0 with negative | nonneg
  · rw [abs_of_neg negative]
    exact if_pos ((number_lt x 0).mpr negative)
  · rw [abs_of_nonneg nonneg]
    exact if_neg (mt (number_lt x 0).mp nonneg.not_gt)

end Extended

end Handover
