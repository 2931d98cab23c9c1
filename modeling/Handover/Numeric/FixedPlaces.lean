import Handover.Numeric.Binary64

/-!
# Decimal text with a fixed number of places

A finite double is an exact fraction.  It is written with a given number of
decimal places by rounding that fraction once, a half going to the even
neighbour.  The rounding itself is shared with other texts, which send a half
elsewhere.
-/

namespace Handover

/-- Where a value goes that is half way between two neighbours. -/
inductive Tie where
  /-- To the even neighbour. -/
  | toEven
  /-- Away from zero. -/
  | away
deriving DecidableEq, Repr

/-- The quotient rounded to the nearest natural number. -/
def roundQuotient (tie : Tie) (numerator denominator : Nat) : Nat :=
  let floor := numerator / denominator
  let rest := 2 * (numerator % denominator)
  if rest < denominator then floor
  else if denominator < rest then floor + 1
  else
    match tie with
    | .toEven => floor + floor % 2
    | .away => floor + 1

/-- Digits of a number, padded on the left with zeros to the given width. -/
def paddedDigits (width n : Nat) : List Char :=
  let digits := Nat.toDigits 10 n
  List.replicate (width - digits.length) '0' ++ digits

namespace Binary64

/-- Text of the value with `places` decimal places, at least one. -/
def toFixed (places : Nat) : Binary64 → String
  | nan => "NaN"
  | infinite negative => if negative then "-inf" else "inf"
  | finite negative mantissa exponent =>
    let (numerator, denominator) := fraction mantissa exponent
    let unit := Nat.pow 10 places
    let units := roundQuotient .toEven (numerator * unit) denominator
    let whole := Nat.toDigits 10 (units / unit)
    let decimals := paddedDigits places (units % unit)
    String.ofList ((if negative then ['-'] else []) ++ whole ++ '.' :: decimals)

end Binary64

end Handover
