/-!
# Measured quantities

Radio quality is reported in quantised levels: 0 to 97 for received power and 0
to 34 for received quality.  A report may still carry any byte; levels outside
the range are only refused where a setting is checked.
-/

namespace Handover

/-- A quantised level of radio power or quality. -/
abbrev Level :=
  UInt8

/-- What an event is evaluated on. -/
inductive Quantity where
  /-- Received power. -/
  | rsrp
  /-- Received quality. -/
  | rsrq
deriving DecidableEq, Repr

namespace Quantity

/-- Greatest level of a quantity; the least one is zero. -/
def greatest : Quantity → Level
  | rsrp => 97
  | rsrq => 34

/-- Text of a quantity in messages. -/
def text : Quantity → String
  | rsrp => "RSRP"
  | rsrq => "RSRQ"

end Quantity

/-- A level as it is shown in messages. -/
def Level.text (level : Level) : String :=
  toString level.toNat

end Handover
