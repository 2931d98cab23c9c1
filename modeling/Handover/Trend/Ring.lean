/-!
# Ring storage

A queue stored in a fixed number of slots.  Its elements start at some slot and
may run over the last slot to continue at the first one, so that they form two
slices: the part up to the last slot, and the part that was wrapped.  Moving the
elements together makes the first slice hold all of them.
-/

namespace Handover.Trend

universe u

/-- A queue in `slots` slots whose oldest element is in slot `start`. -/
structure Ring (β : Type u) where
  /-- Number of slots. -/
  slots : Nat
  /-- Slot of the oldest element. -/
  start : Nat
  /-- Elements from `start` up to the last slot, oldest first. -/
  first : List β
  /-- Elements wrapped to the first slots, oldest first. -/
  second : List β
deriving DecidableEq, Repr

namespace Ring

variable {β : Type u}

/-- The empty ring. -/
def empty (slots : Nat) : Ring β :=
  ⟨slots, 0, [], []⟩

/-- All elements, oldest first. -/
def toList (ring : Ring β) : List β :=
  ring.first ++ ring.second

/-- Number of elements. -/
def size (ring : Ring β) : Nat :=
  ring.first.length + ring.second.length

/-- Adds a newest element in the next slot, the first slot following the last
one. -/
def push (ring : Ring β) (x : β) : Ring β :=
  if ring.second.isEmpty ∧ ring.start + ring.first.length < ring.slots then
    { ring with first := ring.first ++ [x] }
  else
    { ring with second := ring.second ++ [x] }

/-- Removes the oldest element. -/
def pop (ring : Ring β) : Ring β :=
  match ring.first with
  | [] => { ring with start := 0, first := ring.second.tail, second := [] }
  | [_] => { ring with start := 0, first := ring.second, second := [] }
  | _ :: x :: rest => { ring with start := ring.start + 1, first := x :: rest }

/-- Moves the elements together so that none is wrapped. -/
def align (ring : Ring β) : Ring β :=
  if ring.second.isEmpty then ring
  else { ring with start := 0, first := ring.toList, second := [] }

/-- Removes all elements. -/
def clear (ring : Ring β) : Ring β :=
  empty ring.slots

@[simp]
theorem toList_empty (slots : Nat) : (empty slots : Ring β).toList = [] :=
  rfl

theorem size_eq_length (ring : Ring β) : ring.size = ring.toList.length := by
  simp [size, toList]

@[simp]
theorem toList_push (ring : Ring β) (x : β) : (ring.push x).toList = ring.toList ++ [x] := by
  unfold push
  split
  · next fits =>
    have none : ring.second = [] := by simpa using fits.1
    simp [toList, none]
  · simp [toList]

@[simp]
theorem toList_pop (ring : Ring β) : ring.pop.toList = ring.toList.tail := by
  obtain ⟨slots, start, first, second⟩ := ring
  match first with
  | [] => simp [pop, toList]
  | [_] => simp [pop, toList]
  | _ :: _ :: _ => simp [pop, toList]

@[simp]
theorem toList_align (ring : Ring β) : ring.align.toList = ring.toList := by
  unfold align
  split <;> simp [toList]

/-- After moving together, the first slice holds everything. -/
@[simp]
theorem first_align (ring : Ring β) : ring.align.first = ring.toList := by
  unfold align
  split
  · next none => simp [toList, List.isEmpty_iff.1 none]
  · rfl

@[simp]
theorem toList_clear (ring : Ring β) : ring.clear.toList = [] :=
  rfl

end Ring

end Handover.Trend
