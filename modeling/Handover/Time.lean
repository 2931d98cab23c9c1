import Handover.Numeric.FixedPlaces

/-!
# Simulated time

Reports carry the simulated time of their delivery.  The engine never reads a
clock: every age is a difference of two instants, and a difference that would
be negative is zero.
-/

namespace Handover

/-- A point in simulated time, counted in microseconds from the start. -/
structure Instant where
  /-- Microseconds since the start. -/
  micros : UInt64
deriving DecidableEq, Repr, Inhabited

namespace Instant

/-- The latest instant, in microseconds. -/
def latest : Nat :=
  UInt64.size - 1

/-- The instant after a number of microseconds, at most the latest one. -/
def ofMicros (count : Nat) : Instant :=
  ⟨UInt64.ofNat (min count latest)⟩

/-- The instant after a number of milliseconds, at most the latest one. -/
def ofMillis (count : Nat) : Instant :=
  ofMicros (count * 1000)

/-- The instant nearest to a number of seconds.  What is not positive and
finite gives the start. -/
def ofSeconds {α : Type} [Scalar α] (seconds : α) : Instant :=
  if Scalar.isFinite seconds ∧ 0 < seconds then
    ofMicros (Scalar.nearest (seconds * Scalar.ofNat 1000000))
  else
    ⟨0⟩

/-- Whole milliseconds since the start. -/
def millis (time : Instant) : Nat :=
  time.micros.toNat / 1000

/-- Seconds since the start. -/
def seconds {α : Type} [Scalar α] (time : Instant) : α :=
  Scalar.ofNat time.micros.toNat / Scalar.ofNat 1000000

/-- Microseconds from an earlier instant to a later one, zero if they are the
other way round. -/
def since (later earlier : Instant) : Nat :=
  later.micros.toNat - earlier.micros.toNat

/-- The instant some microseconds later, at most the latest one. -/
def plus (time : Instant) (micros : Nat) : Instant :=
  ofMicros (time.micros.toNat + micros)

/-- Text of an instant: seconds with six decimals. -/
def text (time : Instant) : String :=
  "+" ++ (Binary64.ofFloat time.seconds).toFixed 6 ++ "s"

end Instant

/-- Whole microseconds of a span given in seconds and nanoseconds, unless its whole
seconds need more than 64 bits. -/
def wholeMicros? (seconds nanoseconds : Nat) : Option Nat :=
  if seconds + nanoseconds / 1000000000 < UInt64.size then
    some (seconds * 1000000 + nanoseconds / 1000)
  else none

end Handover
