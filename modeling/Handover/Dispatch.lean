import Handover.Ue.State
import Handover.Warning

/-!
# Dispatch

At most one handover of a terminal is under way.  A decision with a target is
passed to the host only if none is outstanding; the mark is taken off when the
host reports the outcome or when the terminal connects anew without one.
-/

namespace Handover

/-- What the engine asks of its host. -/
inductive HostCall where
  /-- Report an event, under an identity. -/
  | subscribe (id : MeasId) (event : MeasurementEvent)
  /-- Start a handover of a terminal. -/
  | trigger (ue : UeId) (target : CellId)
deriving DecidableEq, Repr

/-- What became of a decision. -/
inductive TriggerResult where
  /-- It was passed to the host. -/
  | dispatched
  /-- A handover is already outstanding. -/
  | suppressed
  /-- It names no target. -/
  | abstained
deriving DecidableEq, Repr

/-- How a triggered handover ended. -/
inductive HandoverOutcome where
  /-- The terminal is on the target. -/
  | completed
  /-- The handover or the radio link failed. -/
  | failed
deriving DecidableEq, Repr

/-- Counters of what was dispatched and how it ended.  They count on without end: that a
counter of 64 bits wraps around is left out. -/
structure DispatchStats where
  /-- Handovers passed to the host. -/
  dispatched : Nat
  /-- Decisions held back. -/
  suppressed : Nat
  /-- Handovers that succeeded. -/
  completed : Nat
  /-- Handovers that failed. -/
  failed : Nat
  /-- Handovers dropped because the terminal connected anew. -/
  released : Nat
deriving DecidableEq, Repr

namespace DispatchStats

/-- Nothing counted yet. -/
def zero : DispatchStats :=
  ⟨0, 0, 0, 0, 0⟩

instance : Add DispatchStats where
  add first second :=
    ⟨first.dispatched + second.dispatched, first.suppressed + second.suppressed,
      first.completed + second.completed, first.failed + second.failed,
      first.released + second.released⟩

end DispatchStats

/-- Counters, the state of the terminal and an answer after a dispatch
operation. -/
structure Dispatch (ρ : Type) where
  /-- Counters afterwards. -/
  stats : DispatchStats
  /-- State afterwards. -/
  state : UeState
  /-- The answer. -/
  answer : ρ

namespace Dispatch

/-- The state without an outstanding handover. -/
def settle (state : UeState) : UeState :=
  { state with outstanding := false, pendingTarget := none }

/-- Offers a decision.  A target is passed on unless a handover is
outstanding. -/
def offer (stats : DispatchStats) (state : UeState) (decision : Decision) :
    Dispatch TriggerResult × List HostCall :=
  match decision.target with
  | none => (⟨stats, state, .abstained⟩, [])
  | some target =>
    if state.outstanding then
      (⟨{ stats with suppressed := stats.suppressed + 1 }, state, .suppressed⟩, [])
    else
      (⟨{ stats with dispatched := stats.dispatched + 1 },
        { state with outstanding := true, pendingTarget := some target }, .dispatched⟩,
        [.trigger decision.ue target])

/-- Takes note of an outcome.  The answer tells whether a handover was
outstanding. -/
def acknowledge {α : Type} (stats : DispatchStats) (state : UeState)
    (outcome : HandoverOutcome) : Dispatch Bool × List (Warning α) :=
  if state.outstanding then
    match outcome with
    | .completed => (⟨{ stats with completed := stats.completed + 1 }, settle state, true⟩, [])
    | .failed =>
      (⟨{ stats with failed := stats.failed + 1 }, settle state, true⟩,
        [.handoverFailed state.ue])
  else
    (⟨stats, settle state, false⟩, [])

/-- Drops an outstanding handover whose outcome will not count.  The answer
tells whether there was one. -/
def release (stats : DispatchStats) (state : UeState) : Dispatch Bool :=
  if state.outstanding then
    ⟨{ stats with released := stats.released + 1 }, settle state, true⟩
  else
    ⟨stats, state, false⟩

end Dispatch

end Handover
