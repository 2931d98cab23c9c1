import Handover.Document.Node
import Handover.Document.Yaml.Tag
import Handover.Numeric.Shortest

/-!
# Values of words

A plain word in a YAML text stands for nothing, a truth value, a number or a
text, decided by its spelling.  Whole numbers may be signed and written with the
bases two, eight and sixteen; a decimal number with superfluous leading zeros is
a text.  A type in front of a word decides instead of the spelling.
-/

namespace Handover.Document.Yaml

/-- The text without a leading sign. -/
def withoutSign : List Char → List Char
  | '+' :: rest => rest
  | '-' :: rest => rest
  | text => text

/-- A decimal number with superfluous leading zeros. -/
def hasLeadingZero (text : List Char) : Bool :=
  match withoutSign text with
  | '0' :: c :: rest => (c :: rest).all Char.isDigit
  | _ => false

/-- Magnitude of a whole number without sign, in any base. -/
def magnitude? (text : List Char) : Option Nat :=
  match text with
  | '0' :: 'x' :: rest => digits? 16 rest
  | '0' :: 'o' :: rest => digits? 8 rest
  | '0' :: 'b' :: rest => digits? 2 rest
  | _ => if hasLeadingZero text then none else digits? 10 text

/-- A whole number of any size that is written without a minus sign. -/
def natural? (text : List Char) : Option Nat :=
  match text with
  | '+' :: rest => magnitude? rest
  | _ => magnitude? text

/-- The magnitude of a whole number of any size that is written with a minus
sign. -/
def negative? (text : List Char) : Option Nat :=
  match text with
  | '-' :: rest => magnitude? rest
  | _ => none

/-- Exponent of a decimal number, the part after its mark. -/
def exponent? (text : List Char) : Option Int :=
  match text with
  | '-' :: rest => (digits? 10 rest).map fun magnitude => -(magnitude : Int)
  | '+' :: rest => (digits? 10 rest).map fun magnitude => (magnitude : Int)
  | _ => (digits? 10 text).map fun magnitude => (magnitude : Int)

/-- The double nearest to `digits * 10 ^ exponent`, unless it is infinite. -/
def nearestFinite? (digits : Nat) (exponent : Int) : Option Float :=
  let order : Int := (Nat.toDigits 10 digits).length + exponent
  let value :=
    if digits = 0 ∨ order < -400 then 0
    else if 400 < order then 1 / 0
    else if 0 ≤ exponent then nearestDouble (digits * Nat.pow 10 exponent.toNat) 0
    else nearestDouble digits (-exponent).toNat
  if value.isFinite then some value else none

/-- An unsigned decimal number with a point or an exponent. -/
def unsignedDecimal? (text : List Char) : Option Float :=
  let whole := text.takeWhile Char.isDigit
  let afterWhole := text.dropWhile Char.isDigit
  let (fraction, afterFraction) :=
    match afterWhole with
    | '.' :: rest => (rest.takeWhile Char.isDigit, rest.dropWhile Char.isDigit)
    | _ => ([], afterWhole)
  match digits? 10 (whole ++ fraction) with
  | none => none
  | some digits =>
    let places : Int := fraction.length
    match afterFraction with
    | [] => nearestFinite? digits (-places)
    | mark :: rest =>
      if mark = 'e' ∨ mark = 'E' then
        match exponent? rest with
        | some exponent => nearestFinite? digits (exponent - places)
        | none => none
      else none

/-- A number with a point or an exponent, or one of the words for infinity and
for what is not a number. -/
def decimal? (text : List Char) : Option Float :=
  let word := String.ofList text
  if word ∈ [".inf", ".Inf", ".INF", "+.inf", "+.Inf", "+.INF"] then some (1 / 0)
  else if word ∈ ["-.inf", "-.Inf", "-.INF"] then some (-1 / 0)
  else if word ∈ [".nan", ".NaN", ".NAN"] then some (0 / 0)
  else
    match text with
    | '-' :: rest => (unsignedDecimal? rest).map fun value => -value
    | '+' :: rest => unsignedDecimal? rest
    | _ => unsignedDecimal? text

/-- Spellings of nothing. -/
def nullWords : List String :=
  ["", "~", "null", "Null", "NULL"]

/-- Spellings of truth values. -/
def boolWords : List (String × Bool) :=
  [("true", true), ("True", true), ("TRUE", true),
    ("false", false), ("False", false), ("FALSE", false)]

/-- A whole number within a word of `bits` bits, the sign included if there is
one. -/
def whole? (bits : Nat) (text : List Char) : Option (Node Float) :=
  match natural? text, negative? text with
  | some value, _ => if value < 1 <<< bits then some (.natural value) else none
  | none, some magnitude =>
    if magnitude ≤ 1 <<< (bits - 1) then some (.negative magnitude) else none
  | none, none => none

/-- The value of a word that is neither empty nor a truth value.  Whole numbers
beyond 64 bits are refused up to 128 bits, and beyond that they are rounded. -/
def numberOrText? (text : List Char) : Option (Node Float) :=
  match whole? 64 text, whole? 128 text with
  | some number, _ => some number
  | none, some _ => none
  | none, none =>
    match if hasLeadingZero text then none else decimal? text with
    | some number => some (.float number)
    | none => some (.text (String.ofList text))

/-- The value of a plain word without a type. -/
def resolve? (text : List Char) : Option (Node Float) :=
  let word := String.ofList text
  if word ∈ nullWords then some .null
  else
    match boolWords.lookup word with
    | some value => some (.bool value)
    | none => numberOrText? text

/-- The types that decide about the value of a word, and the value. -/
def typedReaders : List (Tag × (List Char → Option (Node Float))) :=
  [(.common "bool", fun text => (boolWords.lookup (String.ofList text)).map .bool),
    (.common "int", whole? 64),
    (.common "float", fun text => (decimal? text).map .float),
    (.common "null", fun text =>
      if text ≠ [] ∧ String.ofList text ∈ nullWords then some .null else none)]

/-- The value of a word.  A word of a private type has none, and one of an unknown
type is a text. -/
def wordValue? (tag : Option Tag) (isPlain : Bool) (text : List Char) : Option (Node Float) :=
  let untyped := if isPlain then resolve? text else some (.text (String.ofList text))
  match tag with
  | none => untyped
  | some tag =>
    if (Tag.privateName? tag).isSome then none
    -- A private type whose name is no text counts for nothing.
    else if tag.head? = some '!'.toUInt8 then untyped
    else
      match typedReaders.lookup tag with
      | some read => read text
      | none => some (.text (String.ofList text))

end Handover.Document.Yaml
