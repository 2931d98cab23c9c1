import Handover.Trend.History
import Mathlib.Data.List.DropRight

/-!
# What a history keeps

A history that was fed samples one by one holds the last of them, as many as it
has room for.  They are stored in one slice, so reading the first slice of the
ring shows all of them.
-/

namespace Handover.Trend

universe u

/-- One more element at the end of a list pushes the oldest of its last `n + 1`
elements out if there are that many. -/
theorem rtake_succ_concat {β : Type u} (n : Nat) (xs : List β) (x : β) :
    (xs ++ [x]).rtake (n + 1) =
      (if (xs.rtake (n + 1)).length = n + 1 then (xs.rtake (n + 1)).tail
        else xs.rtake (n + 1)) ++ [x] := by
  rw [List.rtake_concat_succ]
  congr 1
  simp only [List.rtake, List.length_drop, List.tail_drop]
  split
  · congr 1
    omega
  · have few : xs.length ≤ n := by omega
    rw [Nat.sub_eq_zero_of_le few, Nat.sub_eq_zero_of_le (Nat.le_succ_of_le few)]

theorem Ring.second_align {β : Type u} (ring : Ring β) : ring.align.second = [] := by
  unfold align
  split
  · next none => exact List.isEmpty_iff.mp none
  · rfl

namespace History

/-- The history holds the last samples of those received, as many as its capacity
allows, and none of them is wrapped. -/
structure Keeps (history : History) (capacity : Nat) (received : List UInt8) : Prop where
  room : history.capacity = capacity
  samples : history.samples = received.rtake capacity
  aligned : history.ring.second = []

theorem keeps_empty (capacity : Nat) : (empty capacity).Keeps capacity [] := by
  refine ⟨rfl, ?_, rfl⟩
  rw [List.rtake_nil]
  rfl

namespace Keeps

variable {history : History} {capacity : Nat} {received : List UInt8}

theorem toList (keeps : history.Keeps capacity received) :
    history.ring.toList = received.rtake capacity := by
  rw [Ring.toList, keeps.aligned, List.append_nil]
  exact keeps.samples

theorem push (keeps : history.Keeps capacity received) (sample : UInt8) :
    (history.push sample).Keeps capacity (received ++ [sample]) := by
  rw [History.push, keeps.room]
  cases capacity with
  | zero =>
      refine ⟨keeps.room, ?_, keeps.aligned⟩
      rw [if_pos rfl, keeps.samples, List.rtake_zero, List.rtake_zero]
  | succ n =>
      rw [if_neg (Nat.succ_ne_zero n)]
      refine ⟨rfl, ?_, Ring.second_align _⟩
      change (Ring.align _).first = _
      rw [Ring.first_align, Ring.toList_push, rtake_succ_concat, Ring.size_eq_length,
        keeps.toList]
      split
      · rw [Ring.toList_pop, keeps.toList]
      · rw [keeps.toList]

theorem clear (keeps : history.Keeps capacity received) :
    history.clear.Keeps capacity [] := by
  refine ⟨keeps.room, ?_, rfl⟩
  rw [List.rtake_nil]
  rfl

/-- A history is empty if it shows no samples. -/
theorem isEmpty_eq (keeps : history.Keeps capacity received) :
    history.isEmpty = history.samples.isEmpty := by
  rw [History.isEmpty, Ring.size_eq_length, keeps.toList, ← keeps.samples]
  cases history.samples <;> rfl

/-- With room for a sample, the newest one is kept. -/
theorem samples_push_ne_nil (keeps : history.Keeps capacity received) (room : 0 < capacity)
    (sample : UInt8) : (history.push sample).samples ≠ [] := by
  obtain ⟨n, rfl⟩ := Nat.exists_eq_succ_of_ne_zero room.ne'
  rw [(keeps.push sample).samples, List.rtake_concat_succ]
  exact List.append_ne_nil_of_right_ne_nil _ (List.cons_ne_nil sample [])

/-- The newest sample that is kept is the newest one received. -/
theorem getLast?_samples (keeps : history.Keeps capacity received)
    (someSample : history.samples ≠ []) : history.samples.getLast? = received.getLast? := by
  rw [keeps.samples] at someSample ⊢
  rw [List.rtake, List.getLast?_drop, if_neg]
  intro none
  exact someSample (List.drop_eq_nil_of_le none)

end Keeps

end History

end Handover.Trend
