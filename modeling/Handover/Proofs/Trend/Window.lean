import Handover.Proofs.Trend.History

/-!
# Histories as windows

A full history drops its oldest sample and stores the new one behind the others, so the new
sample is wrapped to the first slots until the elements are moved together.  This happens
again with every further sample.  After any samples and clearings a history holds the last
of the samples received since it was last cleared, its first slice shows all of them, and
they lie within the slots that were set aside for them.
-/

namespace Handover.Trend

universe u

/-! ## Places in a ring -/

namespace Ring

variable {β : Type u} {ring : Ring β}

/-- The elements lie in the slots without running into each other: the first slice ends
before the last slot or at it, a second slice follows only if the first one ends there, and
the second slice ends before the oldest element. -/
structure Placed (ring : Ring β) : Prop where
  inside : ring.start + ring.first.length ≤ ring.slots
  wraps : ring.second ≠ [] → ring.start + ring.first.length = ring.slots
  apart : ring.second.length ≤ ring.start

theorem placed_empty (slots : Nat) : (empty slots : Ring β).Placed where
  inside := Nat.zero_le slots
  wraps := absurd rfl
  apart := Nat.le_refl 0

namespace Placed

/-- There are no more elements than slots. -/
theorem size_le (placed : ring.Placed) : ring.size ≤ ring.slots := by
  have inside := placed.inside
  have apart := placed.apart
  rw [size]
  omega

/-- With a free slot, a new element runs into no other. -/
theorem push (placed : ring.Placed) (room : ring.size < ring.slots) (x : β) :
    (ring.push x).Placed := by
  have inside := placed.inside
  have apart := placed.apart
  rw [size] at room
  unfold Ring.push
  split
  · next fits =>
    have straight : ring.second = [] := List.isEmpty_iff.mp fits.1
    constructor
    · simp only [List.length_append, List.length_singleton]
      omega
    · exact absurd straight
    · exact apart
  · next crosses =>
    -- Either elements are wrapped already, or the first slice has come to the last slot.
    have reaches : ring.start + ring.first.length = ring.slots := by
      by_cases straight : ring.second = []
      · rw [straight] at crosses
        have blocked : ¬ring.start + ring.first.length < ring.slots :=
          fun below => crosses ⟨rfl, below⟩
        omega
      · exact placed.wraps straight
    constructor
    · exact inside
    · exact fun _ => reaches
    · simp only [List.length_append, List.length_singleton]
      omega

theorem pop (placed : ring.Placed) : ring.pop.Placed := by
  obtain ⟨inside, wraps, apart⟩ := placed
  obtain ⟨slots, start, first, second⟩ := ring
  dsimp only at inside wraps apart
  match first with
  | [] =>
      refine ⟨?_, absurd rfl, Nat.le_refl 0⟩
      simp only [Ring.pop, List.length_tail]
      omega
  | [_] =>
      refine ⟨?_, absurd rfl, Nat.le_refl 0⟩
      simp only [Ring.pop]
      omega
  | _ :: x :: rest =>
      simp only [List.length_cons] at inside wraps
      constructor
      · simp only [Ring.pop, List.length_cons]
        omega
      · intro wrapped
        have reaches := wraps wrapped
        simp only [Ring.pop, List.length_cons]
        omega
      · exact Nat.le_succ_of_le apart

theorem align (placed : ring.Placed) : ring.align.Placed := by
  have fits := placed.size_le
  unfold Ring.align
  split
  · exact placed
  · refine ⟨?_, absurd rfl, Nat.le_refl 0⟩
    rw [size_eq_length] at fits
    simpa using fits

end Placed

@[simp]
theorem slots_push (ring : Ring β) (x : β) : (ring.push x).slots = ring.slots := by
  unfold push
  split <;> rfl

@[simp]
theorem slots_pop (ring : Ring β) : ring.pop.slots = ring.slots := by
  unfold pop
  split <;> rfl

@[simp]
theorem slots_align (ring : Ring β) : ring.align.slots = ring.slots := by
  unfold align
  split <;> rfl

end Ring

/-! ## Samples and clearings -/

/-- What is done to a history. -/
inductive HistoryCall where
  /-- A new sample. -/
  | push (sample : UInt8)
  /-- All samples are forgotten. -/
  | clear
deriving DecidableEq, Repr

namespace HistoryCall

/-- The sample of a call. -/
def sample? : HistoryCall → Option UInt8
  | push sample => some sample
  | clear => none

/-- The samples since the last clearing, oldest first. -/
def received (calls : List HistoryCall) : List UInt8 :=
  (calls.rtakeWhile (· ≠ clear)).filterMap sample?

theorem received_push (calls : List HistoryCall) (sample : UInt8) :
    received (calls ++ [push sample]) = received calls ++ [sample] := by
  rw [received, List.rtakeWhile_concat_pos _ _ _ (by simp), List.filterMap_append]
  rfl

theorem received_clear (calls : List HistoryCall) : received (calls ++ [clear]) = [] := by
  rw [received, List.rtakeWhile_concat_neg _ _ _ (by simp)]
  rfl

end HistoryCall

namespace History

/-- The history after one call. -/
def call (history : History) : HistoryCall → History
  | .push sample => history.push sample
  | .clear => history.clear

/-- The history after some calls. -/
def after (history : History) (calls : List HistoryCall) : History :=
  calls.foldl call history

theorem after_concat (history : History) (calls : List HistoryCall) (last : HistoryCall) :
    history.after (calls ++ [last]) = (history.after calls).call last :=
  List.foldl_append

/-- After any calls a history holds the last samples since it was cleared. -/
theorem keeps_after (capacity : Nat) (calls : List HistoryCall) :
    ((empty capacity).after calls).Keeps capacity (HistoryCall.received calls) := by
  induction calls using List.reverseRecOn with
  | nil => exact keeps_empty capacity
  | append_singleton rest last ih =>
      rw [after_concat]
      cases last with
      | push sample =>
          rw [HistoryCall.received_push]
          exact ih.push sample
      | clear =>
          rw [HistoryCall.received_clear]
          exact ih.clear

/-- The ring has a slot for each sample that is kept, and the samples lie in the slots. -/
structure Housed (history : History) : Prop where
  slots : history.ring.slots = history.capacity
  placed : history.ring.Placed

namespace Housed

variable {history : History}

theorem push (housed : history.Housed) (sample : UInt8) : (history.push sample).Housed := by
  unfold History.push
  split
  · exact housed
  · next capacious =>
    dsimp only
    split
    · next full =>
      have room : history.ring.pop.size < history.ring.pop.slots := by
        rw [Ring.size_eq_length, Ring.toList_pop, List.length_tail, ← Ring.size_eq_length, full,
          Ring.slots_pop, housed.slots]
        omega
      refine ⟨?_, (housed.placed.pop.push room sample).align⟩
      simp only [Ring.slots_align, Ring.slots_push, Ring.slots_pop, housed.slots]
    · next notFull =>
      have room : history.ring.size < history.ring.slots :=
        Nat.lt_of_le_of_ne housed.placed.size_le (housed.slots ▸ notFull)
      refine ⟨?_, (housed.placed.push room sample).align⟩
      simp only [Ring.slots_align, Ring.slots_push, housed.slots]

theorem clear (housed : history.Housed) : history.clear.Housed :=
  ⟨housed.slots, Ring.placed_empty _⟩

theorem call (housed : history.Housed) (next : HistoryCall) : (history.call next).Housed := by
  cases next with
  | push sample => exact housed.push sample
  | clear => exact housed.clear

end Housed

theorem housed_after (capacity : Nat) (calls : List HistoryCall) :
    ((empty capacity).after calls).Housed := by
  induction calls using List.reverseRecOn with
  | nil => exact ⟨rfl, Ring.placed_empty capacity⟩
  | append_singleton rest last ih =>
      rw [after_concat]
      exact ih.call last

/-- After any samples and clearings, the first slice of the ring shows the last samples since
the last clearing, oldest first, as many as there is room for.  None of the samples that are
kept is wrapped, and they lie within the slots.  What is said about the number of samples and
about the newest one is said about this slice.  Without capacity a history stays empty. -/
theorem samples_complete (capacity : Nat) (calls : List HistoryCall) :
    let history := (empty capacity).after calls
    let received := HistoryCall.received calls
    history.samples = received.rtake capacity ∧
      history.samples.length = min capacity received.length ∧
      history.ring.second = [] ∧ history.ring.slots = capacity ∧ history.ring.Placed ∧
      history.size = history.samples.length ∧
      history.isEmpty = history.samples.isEmpty ∧
      history.last? = history.samples.getLast? ∧
      ((empty 0).after calls).isEmpty = true := by
  intro history received
  have keeps : history.Keeps capacity received := keeps_after capacity calls
  have housed : history.Housed := housed_after capacity calls
  have whole : history.ring.toList = history.samples := keeps.toList.trans keeps.samples.symm
  refine ⟨keeps.samples, ?_, keeps.aligned, housed.slots.trans keeps.room, housed.placed, ?_,
    keeps.isEmpty_eq, ?_, ?_⟩
  · rw [keeps.samples, List.rtake, List.length_drop]
    omega
  · rw [size, Ring.size_eq_length, whole]
  · rw [last?, whole]
  · have idle := keeps_after 0 calls
    rw [idle.isEmpty_eq, idle.samples, List.rtake_zero]
    rfl

/-- The oldest sample is dropped many times over. -/
example : ((empty 4).after ((List.range 101).map fun n => .push (.ofNat n))).samples =
    [97, 98, 99, 100] := by
  decide +kernel

end History

end Handover.Trend
