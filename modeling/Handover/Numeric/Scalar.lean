/-!
# Scalars

The operations that fuzzy inference and trend prediction need of a number.
Every algorithm of the library is written once over a `Scalar` type: run on
binary floating-point numbers it is the program, read over the real numbers it
is the mathematics that the program approximates.

Comparisons are not assumed total.  A scalar type may hold values that are not
numbers; `isNaN` recognises them, every comparison with one of them is false,
and the selections `lesser` and `greater` pass them over.
-/

namespace Handover

/-- A type of numbers with the arithmetic, the order and the exponential used
by the inference. -/
class Scalar (α : Type) extends
    Zero α, One α, Add α, Sub α, Mul α, Div α, Neg α, LT α, LE α where
  /-- The strict order can be tested. -/
  decLt : DecidableLT α
  /-- The order can be tested. -/
  decLe : DecidableLE α
  /-- The decimal `digits / 10 ^ places`. -/
  ofDecimal (digits : Int) (places : Nat) : α
  /-- The sum `x * y + z`, rounded at most once. -/
  mulAdd (x y z : α) : α
  /-- The exponential function. -/
  exp : α → α
  /-- The value is not a number. -/
  isNaN : α → Bool
  /-- The value is a number and not infinite. -/
  isFinite : α → Bool
  /-- The nearest natural number of a non-negative value below `2 ^ 64`, halves
  going up. -/
  nearest : α → Nat

namespace Scalar

attribute [reducible, instance] decLt decLe

variable {α : Type} [Scalar α]

/-- A whole number. -/
def ofInt (n : Int) : α :=
  ofDecimal n 0

/-- A natural number. -/
def ofNat (n : Nat) : α :=
  ofDecimal n 0

/-- The number two. -/
def two : α :=
  ofNat 2

/-- Weight sums up to this bound, `2 ^ -52`, count as no weight at all. -/
def epsilon : α :=
  1 / ofNat (Nat.pow 2 52)

/-- Both values are numbers and neither is below the other. -/
def Same (x y : α) : Prop :=
  x ≤ y ∧ y ≤ x

instance (x y : α) : Decidable (Same x y) :=
  inferInstanceAs (Decidable (x ≤ y ∧ y ≤ x))

/-- The smaller of two values; a value that is not a number loses. -/
def lesser (x y : α) : α :=
  if x < y then x else if isNaN y then x else y

/-- The greater of two values; a value that is not a number loses. -/
def greater (x y : α) : α :=
  if y < x then x else if isNaN y then x else y

/-- The value without its sign. -/
def magnitude (x : α) : α :=
  if x < 0 then -x else x

/-- The value moved into `[0, 1]`. -/
def clampUnit (x : α) : α :=
  if x < 0 then 0 else if 1 < x then 1 else x

/-- Continues a power, `result * base ^ n`, by the lowest binary digit of its
exponent. -/
def powerFrom (result base : α) (n : Nat) : α :=
  let next := if n % 2 = 1 then result * base else result
  if n / 2 = 0 then next else powerFrom next (base * base) (n / 2)
termination_by n

/-- Natural powers by repeated squaring. -/
def power (x : α) (n : Nat) : α :=
  powerFrom 1 x n

end Scalar

end Handover
