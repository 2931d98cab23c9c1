import Handover.Numeric.FixedPlaces

/-!
# Shortest decimal text

Among the decimals that read back as a given double, the text shows one with
the fewest digits, and of those the nearest.  Two may be equally near; which of
them is shown belongs to the layout of the text.  The reals that read back as the
double `mantissa * 2 ^ exponent` form an interval around it; a decimal grid of
some fineness meets the interval if and only if one of the two grid points next
to the double lies in it, so trying grids of one, two, … seventeen digits finds
the shortest decimal.

How the digits are laid out is a `DecimalLayout`: the library has one for
messages and one for documents.
-/

namespace Handover

namespace Binary64

/-- The interval of reals that read back as a double, scaled by four times the
weight of its last mantissa bit. -/
structure Basin where
  /-- Lower end. -/
  low : Nat
  /-- The double itself. -/
  centre : Nat
  /-- Upper end. -/
  high : Nat
  /-- Both ends belong to the interval. -/
  closed : Bool
deriving Repr

/-- The interval reaches half way to each neighbour.  Below a power of two the
neighbours lie twice as close. -/
def basin (mantissa : Nat) (exponent : Int) : Basin :=
  let narrow := mantissa = leadingOne ∧ leastExponent < exponent
  { low := 4 * mantissa - (if narrow then 1 else 2)
    centre := 4 * mantissa
    high := 4 * mantissa + 2
    closed := mantissa % 2 = 0 }

/-- The basin holds the real `4 * numerator / denominator`. -/
def Basin.Holds (basin : Basin) (numerator denominator : Nat) : Prop :=
  let point := 4 * numerator
  if basin.closed then
    basin.low * denominator ≤ point ∧ point ≤ basin.high * denominator
  else
    basin.low * denominator < point ∧ point < basin.high * denominator

instance (basin : Basin) (numerator denominator : Nat) :
    Decidable (basin.Holds numerator denominator) := by
  unfold Basin.Holds
  infer_instance

/-- Number of places by which a proper fraction has to be shifted to reach
one. -/
def leadingPlaces (numerator denominator : Nat) : Nat → Nat
  | 0 => 0
  | fuel + 1 =>
    if denominator ≤ numerator then 0
    else leadingPlaces (10 * numerator) denominator fuel + 1

/-- The decimal exponent of the first digit of a positive fraction. -/
def firstExponent (numerator denominator : Nat) : Int :=
  if denominator ≤ numerator then
    ((Nat.toDigits 10 (numerator / denominator)).length : Int) - 1
  else
    -(leadingPlaces numerator denominator 400 : Int)

/-- Drops trailing zeros of a digit count's number, moving the exponent up. -/
def trimZeros (digits : Nat) (exponent : Int) : Nat → Nat × Int
  | 0 => (digits, exponent)
  | fuel + 1 =>
    if digits % 10 = 0 ∧ digits ≠ 0 then trimZeros (digits / 10) (exponent + 1) fuel
    else (digits, exponent)

/-- The grid point `digits * 10 ^ place` next to the double that lies in its
basin, if there is one; of two, the nearer, and if neither is, the one that a
rounded value would go to. -/
def gridPoint? (tie : Tie) (mantissa : Nat) (exponent place : Int) : Option Nat :=
  let (numerator, denominator) := fraction mantissa exponent
  -- The double counted in grid steps, and the weight of one mantissa bit there.
  let scaled := numerator * Nat.pow 10 (-place).toNat
  let unit := denominator * Nat.pow 10 place.toNat
  let below := scaled / unit
  let near := roundQuotient tie scaled unit
  let far := if near = below then below + 1 else below
  -- One grid step is `unit` and the double is `scaled`, so a grid point `d`
  -- is `d * unit * mantissa / scaled` mantissa bits high.
  let holds := fun point => (basin mantissa exponent).Holds (point * unit * mantissa) scaled
  if holds near then some near
  else if holds far then some far
  else none

/-- First hit among grids of increasing fineness. -/
def searchGrids (tie : Tie) (mantissa : Nat) (exponent first : Int) (count : Nat) :
    Nat → Nat × Int
  | 0 => (mantissa, exponent)
  | fuel + 1 =>
    let place := first - count
    match gridPoint? tie mantissa exponent place with
    | some digits => trimZeros digits place 20
    | none => searchGrids tie mantissa exponent first (count + 1) fuel

/-- The shortest decimal `digits * 10 ^ exponent` of a positive double. -/
def shortest (tie : Tie) (mantissa : Nat) (exponent : Int) : Nat × Int :=
  let (numerator, denominator) := fraction mantissa exponent
  searchGrids tie mantissa exponent (firstExponent numerator denominator) 0 17

end Binary64

/-- How the digits of a decimal are laid out as a text. -/
structure DecimalLayout where
  /-- Which of two decimals is shown that are equally short and equally near. -/
  tie : Tie
  /-- The number is written without an exponent if its point stands this many
  places after the first digit. -/
  positional : Int → Bool
  /-- Follows a whole number. -/
  wholeMark : String
  /-- Text of a value that is not a number. -/
  nan : String
  /-- Text of positive infinity. -/
  infinity : String

namespace DecimalLayout

/-- Layout in messages: always positional, and nothing after a whole number; the
greater of two equally near magnitudes is shown. -/
def message : DecimalLayout where
  tie := .away
  positional := fun _ => true
  wholeMark := ""
  nan := "NaN"
  infinity := "inf"

/-- Layout in documents: positional from four zeros after the point up to
sixteen digits before it, and a whole number shows one decimal; of two equally
near decimals the one with an even last digit is shown. -/
def document : DecimalLayout where
  tie := .toEven
  positional := fun point => -5 < point && point ≤ 16
  wholeMark := ".0"
  nan := ".nan"
  infinity := ".inf"

/-- Text of the positive decimal `digits * 10 ^ exponent`. -/
def decimal (layout : DecimalLayout) (digits : Nat) (exponent : Int) : String :=
  let text := Nat.toDigits 10 digits
  let point : Int := text.length + exponent
  if layout.positional point then
    if 0 ≤ exponent then
      String.ofList (text ++ List.replicate exponent.toNat '0') ++ layout.wholeMark
    else if 0 < point then
      String.ofList (text.take point.toNat ++ '.' :: text.drop point.toNat)
    else
      String.ofList ('0' :: '.' :: List.replicate (-point).toNat '0' ++ text)
  else
    let fraction := if text.length = 1 then [] else '.' :: text.drop 1
    String.ofList (text.take 1 ++ fraction ++ ['e']) ++ toString (point - 1)

/-- Text of a double. -/
def render (layout : DecimalLayout) : Binary64 → String
  | .nan => layout.nan
  | .infinite negative => (if negative then "-" else "") ++ layout.infinity
  | .finite negative mantissa exponent =>
    let unsigned :=
      if mantissa = 0 then "0" ++ layout.wholeMark
      else
        let (digits, place) := Binary64.shortest layout.tie mantissa exponent
        layout.decimal digits place
    (if negative then "-" else "") ++ unsigned

end DecimalLayout

/-- Scalars that can be shown in a message. -/
class DecimalText (α : Type) where
  /-- The text of the value. -/
  text : α → String

instance : DecimalText Float where
  text := fun x => DecimalLayout.message.render (.ofFloat x)

end Handover
