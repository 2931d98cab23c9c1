import Handover.Config.Error

/-!
# Hysteresis

The margin of an event, sent to the terminal in half decibels from 0 to 30.
-/

namespace Handover

open Scalar

/-- A margin of up to fifteen decibels. -/
structure Hysteresis where
  /-- The margin in half decibels. -/
  element : UInt8
  /-- The margin can be sent. -/
  inRange : element ≤ 30
deriving DecidableEq, Repr

namespace Hysteresis

variable {α : Type}

/-- No margin. -/
def zero : Hysteresis :=
  ⟨0, by decide⟩

/-- The margin of a number of half decibels. -/
def ofElement (element : UInt8) : Except (ConfigError α) Hysteresis :=
  if inRange : element ≤ 30 then .ok ⟨element, inRange⟩
  else .error (.hysteresisElement element)

/-- The margin nearest to a number of decibels in `[0, 15]`. -/
def ofDecibels [Scalar α] (decibels : α) : Except (ConfigError α) Hysteresis :=
  if 0 ≤ decibels ∧ decibels ≤ ofNat 15 then
    let element := UInt8.ofNat (nearest (decibels * two))
    if inRange : element ≤ 30 then .ok ⟨element, inRange⟩
    else .error (.hysteresisDecibels decibels)
  else
    .error (.hysteresisDecibels decibels)

/-- The margin in decibels. -/
def decibels [Scalar α] (hysteresis : Hysteresis) : α :=
  ofNat hysteresis.element.toNat / two

end Hysteresis

end Handover
