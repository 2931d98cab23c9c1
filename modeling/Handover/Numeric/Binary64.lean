import Handover.Numeric.Scalar

/-!
# Double precision numbers

`Float` is the scalar type of the running program.  A finite value is also the
exact fraction `mantissa * 2 ^ exponent` up to its sign, and this file reads
that fraction off the bit pattern: printing works on it with natural numbers
only, so that no rounding takes place on the way to a text.
-/

namespace Handover

/-- The double nearest to the decimal `digits / 10 ^ places`. -/
def nearestDouble (digits : Int) (places : Nat) : Float :=
  let unsigned := Float.ofScientific digits.natAbs true places
  if digits < 0 then -unsigned else unsigned

/-- What a double precision bit pattern stands for. -/
inductive Binary64 where
  /-- No number. -/
  | nan
  /-- Beyond every finite number; negative if the flag is set. -/
  | infinite (negative : Bool)
  /-- The number `mantissa * 2 ^ exponent`, negated if the flag is set.  The
  number is normal if `mantissa` has all 53 bits. -/
  | finite (negative : Bool) (mantissa : Nat) (exponent : Int)
deriving DecidableEq, Repr

namespace Binary64

/-- Number of explicitly stored mantissa bits. -/
def storedBits : Nat :=
  52

/-- Weight of the mantissa bit that is not stored. -/
def leadingOne : Nat :=
  1 <<< storedBits

/-- Exponent of the last mantissa bit of the smallest numbers. -/
def leastExponent : Int :=
  -1074

/-- Reading of the 64 bits: sign, eleven exponent bits, and the mantissa whose
leading one is not stored for normal numbers. -/
def ofBits (bits : Nat) : Binary64 :=
  let negative := (bits >>> 63) % 2 = 1
  let scale := (bits >>> storedBits) % 2048
  let fraction := bits % leadingOne
  if scale = 2047 then
    if fraction = 0 then .infinite negative else .nan
  else if scale = 0 then
    .finite negative fraction leastExponent
  else
    .finite negative (leadingOne + fraction) (leastExponent + (scale - 1 : Nat))

/-- What a double stands for. -/
def ofFloat (x : Float) : Binary64 :=
  if x.isNaN then .nan else ofBits x.toBits.toNat

/-- The fraction `numerator / denominator` equal to `mantissa * 2 ^ exponent`. -/
def fraction (mantissa : Nat) (exponent : Int) : Nat × Nat :=
  (mantissa <<< exponent.toNat, 1 <<< (-exponent).toNat)

/-- The exact value `significand * 2 ^ exponent` of a finite number. -/
def significand? : Binary64 → Option (Int × Int)
  | finite negative mantissa exponent =>
    some (if negative then -(mantissa : Int) else mantissa, exponent)
  | _ => none

end Binary64

/-- Drops binary digits; the last digit that is left is set if one of them was. -/
def dropDigits (n count : Nat) : Nat :=
  let kept := n >>> count
  if kept <<< count = n then kept else kept ||| 1

/-- The double nearest to `significand * 2 ^ exponent`.  Digits that are far behind the
last one of a double decide only whether there is anything behind it. -/
def nearestBinary (significand exponent : Int) : Float :=
  let order := significand.natAbs.log2
  if Binary64.leastExponent + Binary64.storedBits ≤ order + exponent then
    let spare := order - 63
    let unsigned := (UInt64.ofNat (dropDigits significand.natAbs spare)).toFloat
    (if significand < 0 then -unsigned else unsigned).scaleB (exponent + spare)
  else
    let places := (-exponent).toNat
    -- A negative power of two is a power of five behind the point.
    nearestDouble (significand * Nat.pow 5 places) places

/-- The double nearest to `x * y + z`.  Where that is zero or one of the values is not
finite, rounding the product changes nothing. -/
def roundedMulAdd (x y z : Float) : Float :=
  let parts? := fun value => (Binary64.ofFloat value).significand?
  match parts? x, parts? y, parts? z with
  | some (m, e), some (n, f), some (k, g) =>
    let exponent := min (e + f) g
    let scaled := fun (significand place : Int) =>
      significand * (1 <<< (place - exponent).toNat : Nat)
    let sum := scaled (m * n) (e + f) + scaled k g
    if sum = 0 then x * y + z else nearestBinary sum exponent
  | _, _, _ => x * y + z

instance : Scalar Float where
  zero := 0
  one := 1
  add := Float.add
  sub := Float.sub
  mul := Float.mul
  div := Float.div
  neg := Float.neg
  lt := fun x y => x < y
  le := fun x y => x ≤ y
  decLt := fun x y => inferInstanceAs (Decidable (x < y))
  decLe := fun x y => inferInstanceAs (Decidable (x ≤ y))
  ofDecimal := nearestDouble
  mulAdd := roundedMulAdd
  exp := Float.exp
  isNaN := Float.isNaN
  isFinite := Float.isFinite
  nearest := fun x => x.round.toUInt64.toNat

end Handover
