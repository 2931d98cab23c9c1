import Handover.Trend.Ring

/-!
# Signal histories

The last few quality samples of a cell, oldest first.  A full history drops its
oldest sample for a new one, and the stored elements are moved together after
every sample, so that the whole history can be read as a single slice.
-/

namespace Handover.Trend

/-- A bounded window of samples. -/
structure History where
  /-- Most samples that are kept. -/
  capacity : Nat
  /-- The samples. -/
  ring : Ring UInt8
deriving DecidableEq, Repr

namespace History

/-- The history without samples.  There is room for any capacity here: that a capacity of
`2 ^ 60` or more cannot be provided for is left out. -/
def empty (capacity : Nat) : History :=
  ⟨capacity, .empty capacity⟩

/-- Adds a newest sample; nothing is kept without capacity. -/
def push (history : History) (sample : UInt8) : History :=
  if history.capacity = 0 then history
  else
    let room := if history.ring.size = history.capacity then history.ring.pop else history.ring
    { history with ring := (room.push sample).align }

/-- Forgets all samples. -/
def clear (history : History) : History :=
  { history with ring := history.ring.clear }

/-- The samples, read from the first slice of the ring. -/
def samples (history : History) : List UInt8 :=
  history.ring.first

/-- The newest sample. -/
def last? (history : History) : Option UInt8 :=
  history.ring.toList.getLast?

/-- Number of samples. -/
def size (history : History) : Nat :=
  history.ring.size

/-- There are no samples. -/
def isEmpty (history : History) : Bool :=
  history.ring.size == 0

end History

end Handover.Trend
