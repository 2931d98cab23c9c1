import Handover.Proofs.Strategy.Registration
import Handover.Proofs.Ue.Log

/-!
# What reports tell

A discovery report tells of the neighbours with complete results.  A report of a
poor serving cell tells something only to a fuzzy strategy, which evaluates it if
it does not contradict itself.  What a strategy keeps of a terminal goes on to be
what its log tells.
-/

namespace Handover

/-- A result that is complete, as an observation. -/
def NeighbourResult.observation? (time : Instant) (result : NeighbourResult) :
    Option Observation :=
  match result.rsrp, result.rsrq with
  | some rsrp, some rsrq => some (.heard result.cell rsrp rsrq time)
  | _, _ => none

/-- The neighbours with complete results in a report. -/
def Report.heard (report : Report) : List Observation :=
  report.neighbours.filterMap (NeighbourResult.observation? report.time)

theorem NeighbourResult.observation?_eq (time : Instant) (result : NeighbourResult) :
    result.observation? time =
      match result.requireBoth with
      | .ok (rsrp, rsrq) => some (.heard result.cell rsrp rsrq time)
      | .error _ => none := by
  rcases result with ⟨cell, rsrp, rsrq⟩
  cases rsrp <;> cases rsrq <;> rfl

open Inference Strategy UeState

namespace Strategy

variable {α : Type} {ue : UeId} {store : Store} {window : Nat} {log : List Observation}

theorem cacheResults_reflects (time : Instant) (results : List NeighbourResult)
    (reflects : (store.stateOf ue).Reflects window log) :
    ((cacheResults (α := α) ue time results store).1.stateOf ue).Reflects window
      (log ++ results.filterMap (NeighbourResult.observation? time)) := by
  induction results generalizing store log with
  | nil =>
      rw [List.filterMap_nil, List.append_nil]
      exact reflects
  | cons result rest ih =>
      rw [cacheResults, List.filterMap_cons, result.observation?_eq]
      cases result.requireBoth with
      | error error => exact ih reflects
      | ok both =>
          dsimp only
          rw [List.append_cons]
          apply ih
          rw [Store.update, Store.change, Store.stateOf_put_self]
          exact reflects.heard result.cell both.1 both.2 time

theorem discover_reflects (id : MeasId) (report : Report)
    (reflects : (store.stateOf ue).Reflects window log) :
    ((discover (α := α) ue id report store).store.stateOf ue).Reflects window
      (log ++ report.heard) := by
  have cached := cacheResults_reflects (α := α) report.time report.neighbours reflects
  unfold discover
  split
  · next none =>
    rw [Report.heard, List.isEmpty_iff.mp none, List.filterMap_nil, List.append_nil]
    exact reflects
  · exact cached

end Strategy

namespace HandoverStrategy

variable {α : Type} [Scalar α]

/-- Identity of the discovery event of a strategy that keeps neighbours. -/
def discoveryEvent? : HandoverStrategy α → Option MeasId
  | noOp => none
  | bestNeighbour _ => none
  | offset part => part.discoveryEvent
  | typeOne part => part.discoveryEvent
  | typeTwo part => part.discoveryEvent

/-- What a report tells of a terminal in a given state. -/
def observations (strategy : HandoverStrategy α) (state : UeState) (id : MeasId)
    (report : Report) : List Observation :=
  if strategy.discoveryEvent? = some id then report.heard
  else
    match strategy.fuzzy? with
    | none => []
    | some part =>
      if part.servingEvent = some id ∧ report.servingRsrq ≤ part.servingThreshold then
        [.assessed report.servingRsrq
          (part.evaluator.faded state report.time report.servingRsrq)]
      else []

variable {ue : UeId} {store : Store} {window : Nat} {log : List Observation}

/-- A fuzzy strategy keeps what reports tell. -/
theorem evaluate_reflects_of_fuzzy {strategy : HandoverStrategy α} {part : FuzzyInference α}
    (fuzzy : strategy.fuzzy? = some part) (discovery : strategy.discoveryEvent? = part.discoveryEvent)
    (id : MeasId) (report : Report) (reflects : (store.stateOf ue).Reflects window log) :
    ((strategy.evaluate ue id report store).store.stateOf ue).Reflects window
      (log ++ strategy.observations (store.stateOf ue) id report) := by
  rw [evaluate_of_fuzzy fuzzy, observations, fuzzy, discovery, FuzzyInference.evaluate]
  by_cases found : part.discoveryEvent = some id
  · rw [if_pos found, if_pos found]
    exact discover_reflects id report reflects
  · rw [if_neg found, if_neg found]
    dsimp only
    by_cases poor : part.servingEvent = some id
    · rw [if_neg (not_not_intro poor), whenConsistent]
      by_cases above : part.servingThreshold < report.servingRsrq
      · rw [if_pos above, if_neg (fun both => UInt8.not_le.mpr above both.2), List.append_nil]
        exact reflects
      · rw [if_neg above, if_pos ⟨poor, UInt8.not_lt.mp above⟩, FuzzyInference.infer,
          Store.stateOf_put_self]
        exact reflects.assessed part.evaluator report.time report.servingRsrq
    · rw [if_pos poor, if_neg (fun both => poor both.1), List.append_nil]
      exact reflects

/-- Whatever the strategy, evaluating a report keeps what the report tells and
nothing else. -/
theorem evaluate_reflects (strategy : HandoverStrategy α) (id : MeasId) (report : Report)
    (reflects : (store.stateOf ue).Reflects window log) :
    ((strategy.evaluate ue id report store).store.stateOf ue).Reflects window
      (log ++ strategy.observations (store.stateOf ue) id report) := by
  cases strategy with
  | noOp =>
      change (store.stateOf ue).Reflects window (log ++ [])
      rw [List.append_nil]
      exact reflects
  | bestNeighbour part =>
      have silent :
          (bestNeighbour (α := α) part).observations (store.stateOf ue) id report = [] := rfl
      rw [silent, List.append_nil]
      simp only [evaluate, BestNeighbour.evaluate]
      split
      · exact reflects
      · split <;> exact reflects
  | offset part =>
      rw [evaluate, Offset.evaluate, observations, discoveryEvent?]
      by_cases found : part.discoveryEvent = some id
      · rw [if_pos found, if_pos found]
        exact discover_reflects id report reflects
      · rw [if_neg found, if_neg found]
        simp only [fuzzy?, List.append_nil, whenConsistent]
        split
        · exact reflects
        · split <;> exact reflects
  | typeOne part => exact evaluate_reflects_of_fuzzy rfl rfl id report reflects
  | typeTwo part => exact evaluate_reflects_of_fuzzy rfl rfl id report reflects

end HandoverStrategy

end Handover
