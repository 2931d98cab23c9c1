import Handover.Proofs.Engine.Sharding
import Handover.Proofs.Strategy.Observations

/-!
# The engine keeps what its log tells

Every request adds to the log of its terminal what it tells of the terminal, and
the log starts anew when the terminal is removed.  Whatever the engine keeps of a
terminal can be read off this log: the records of its neighbours, their histories
and that of the serving cell, and the serving cell itself.
-/

namespace Handover

/-- Samples that an algorithm keeps per history. -/
def AlgorithmConfig.window {α : Type} : AlgorithmConfig α → Nat
  | noOp => 6
  | bestNeighbour _ _ => 6
  | offset _ _ => 6
  | typeOne config => config.predictorWindow.toNat
  | typeTwo config => config.predictorWindow.toNat

theorem HandoverStrategy.historyLength_ofConfig {α : Type} [Scalar α]
    {algorithm : AlgorithmConfig α} {strategy : HandoverStrategy α}
    (chosen : ofConfig algorithm = .ok strategy) : strategy.historyLength = algorithm.window := by
  cases algorithm with
  | noOp | offset _ _ =>
      cases chosen
      rfl
  | bestNeighbour hysteresis timeToTrigger =>
      rcases exists_of_map_eq_ok chosen with ⟨part, _, rfl⟩
      rfl
  | typeOne config | typeTwo config =>
      rcases exists_of_map_eq_ok chosen with ⟨part, built, rfl⟩
      rcases exists_of_bind_eq_ok built with ⟨evaluator, _, whole⟩
      cases whole
      rfl

namespace Engine

open UeState

variable {α : Type} [Scalar α]

/-! ## Observations -/

/-- What a request tells of its terminal.  An outcome tells of a new serving cell
if it says that the outstanding handover has completed. -/
def observe (engine : Engine α) : Request → List Observation
  | .report ue id report =>
    engine.strategy.observations (engine.store.stateOf ue) id report
  | .evaluate ue id report =>
    engine.strategy.observations (engine.store.stateOf ue) id report
  | .offer _ => []
  | .acknowledge _ _ => []
  | .connect _ cell time => [.served cell time]
  | .conclude ue outcome time =>
    match (engine.store.stateOf ue).landing? outcome with
    | some target => [.served target time]
    | none => []
  | .remove _ => []

/-- What the requests that are about a terminal tell of it. -/
def observations (engine : Engine α) (ue : UeId) : List Request → List Observation
  | [] => []
  | request :: rest =>
    (if request.ue = ue then engine.observe request else []) ++
      (engine.handle request).engine.observations ue rest

/-- The log of a terminal: what it was told of it since it was last removed. -/
def log (engine : Engine α) (ue : UeId) (requests : List Request) : List Observation :=
  (engine.run (requests.rdropWhile (· ≠ .remove ue))).observations ue
    (requests.rtakeWhile (· ≠ .remove ue))

theorem observations_concat (engine : Engine α) (ue : UeId) (requests : List Request)
    (request : Request) :
    engine.observations ue (requests ++ [request]) =
      engine.observations ue requests ++
        if request.ue = ue then (engine.run requests).observe request else [] := by
  induction requests generalizing engine with
  | nil => exact List.append_nil _
  | cons head rest ih =>
      rw [List.cons_append, observations, observations, ih, List.append_assoc, run_cons]

theorem log_remove (engine : Engine α) (ue : UeId) (requests : List Request) :
    engine.log ue (requests ++ [.remove ue]) = [] := by
  rw [log, List.rtakeWhile_concat_neg _ _ _ (by simp)]
  rfl

theorem log_concat (engine : Engine α) {ue : UeId} (requests : List Request)
    {request : Request} (stays : request ≠ .remove ue) :
    engine.log ue (requests ++ [request]) =
      engine.log ue requests ++
        if request.ue = ue then (engine.run requests).observe request else [] := by
  rw [log, List.rtakeWhile_concat_pos _ _ _ (by simp [stays]),
    List.rdropWhile_concat_pos _ _ _ (by simp [stays]), observations_concat, ← run_append,
    List.rdropWhile_append_rtakeWhile, log]

/-! ## Single requests -/

variable {engine : Engine α} {ue : UeId} {window : Nat} {log : List Observation}

theorem evaluate_reflects (id : MeasId) (report : Report)
    (reflects : (engine.store.stateOf ue).Reflects window log) :
    ((engine.evaluate ue id report).engine.store.stateOf ue).Reflects window
      (log ++ engine.strategy.observations (engine.store.stateOf ue) id report) := by
  have kept := engine.strategy.evaluate_reflects id report reflects
  simp only [evaluate]
  split <;> exact kept

omit [Scalar α] in
theorem offer_reflects {decision : Decision} (about : decision.ue = ue)
    (reflects : (engine.store.stateOf ue).Reflects window log) :
    ((engine.offer decision).engine.store.stateOf ue).Reflects window log := by
  subst about
  cases target : decision.target with
  | none =>
      rw [engine.offer_of_none target]
      exact reflects
  | some cell =>
      rw [engine.offer_of_some target]
      simp only [Store.stateOf_put_self, Dispatch.offer, target]
      split
      · exact reflects
      · exact reflects.withHandover _ _

omit [Scalar α] in
theorem connect_reflects (cell : CellId) (time : Instant)
    (reflects : (engine.store.stateOf ue).Reflects window log) :
    ((engine.connect ue cell time).engine.store.stateOf ue).Reflects window
      (log ++ [.served cell time]) := by
  rw [connect, Store.stateOf_put_self]
  apply Reflects.served
  unfold Dispatch.release
  split
  · exact reflects.withHandover _ _
  · exact reflects

omit [Scalar α] in
theorem acknowledge_reflects (outcome : HandoverOutcome)
    (reflects : (engine.store.stateOf ue).Reflects window log) :
    ((engine.acknowledge ue outcome).engine.store.stateOf ue).Reflects window log := by
  rw [acknowledge_stateOf]
  exact reflects.withHandover false none

theorem conclude_reflects (outcome : HandoverOutcome) (time : Instant)
    (reflects : (engine.store.stateOf ue).Reflects window log) :
    ((engine.conclude ue outcome time).engine.store.stateOf ue).Reflects window
      (log ++ engine.observe (.conclude ue outcome time)) := by
  have settled := reflects.withHandover false none
  rw [conclude_stateOf, observe]
  cases (engine.store.stateOf ue).landing? outcome with
  | none =>
      rw [List.append_nil]
      exact settled
  | some target => exact settled.served target time

/-- A request that does not remove its terminal adds what it tells to the log. -/
theorem handle_reflects {request : Request} (stays : request ≠ .remove request.ue)
    (reflects : (engine.store.stateOf request.ue).Reflects window log) :
    ((engine.handle request).engine.store.stateOf request.ue).Reflects window
      (log ++ engine.observe request) := by
  cases request with
  | report ue id report =>
      exact offer_reflects (engine.evaluate_ue ue id report)
        (evaluate_reflects id report reflects)
  | evaluate ue id report => exact evaluate_reflects id report reflects
  | offer decision =>
      rw [observe, List.append_nil]
      exact offer_reflects rfl reflects
  | acknowledge ue outcome =>
      rw [observe, List.append_nil]
      exact acknowledge_reflects outcome reflects
  | connect ue cell time => exact connect_reflects cell time reflects
  | conclude ue outcome time => exact conclude_reflects outcome time reflects
  | remove ue => exact absurd rfl stays

/-! ## Runs -/

/-- After any run, what is kept of a terminal is what its log tells. -/
theorem Fresh.reflects (fresh : engine.Fresh) (requests : List Request) (ue : UeId) :
    ((engine.run requests).store.stateOf ue).Reflects engine.store.historyLength
      (engine.log ue requests) := by
  -- From the end, since the log is cut off by the last removal.
  induction requests using List.reverseRecOn with
  | nil =>
      rw [run_nil, fresh.stateOf]
      exact Reflects.fresh ue _
  | append_singleton requests request ih =>
      rw [run_append, run_cons, run_nil]
      by_cases removal : request = .remove ue
      · subst removal
        rw [log_remove]
        change (((engine.run requests).store.remove ue).stateOf ue).Reflects _ _
        rw [Store.stateOf_remove_self, ← run_historyLength engine requests]
        exact Reflects.fresh ue _
      · rw [log_concat _ _ removal]
        by_cases about : request.ue = ue
        · subst about
          rw [if_pos rfl]
          exact handle_reflects removal ih
        · rw [if_neg about, List.append_nil, stateOf_handle_of_ne _ about]
          exact ih

theorem historyLength_of_start {config : EngineConfig α}
    (started : (start config).result = .ok engine) :
    engine.store.historyLength = config.algorithm.window := by
  obtain ⟨_, strategy, _, chosen, _, rfl⟩ := start_eq_ok started
  exact HandoverStrategy.historyLength_ofConfig chosen

/-- After any run of a started engine, a known terminal has one record for each
neighbour that was heard since its last removal.  The records, their histories,
that of the serving cell and the serving cell itself are what the log tells, and
a history that is not empty ends with the quality in its record. -/
theorem state_follows_log {config : EngineConfig α} (started : (start config).result = .ok engine)
    (requests : List Request) {state : UeState}
    (known : (engine.run requests).store.state? ue = some state) :
    state.Reflects config.algorithm.window (engine.log ue requests) ∧
      (state.snapshot.map NeighbourRecord.cell).Nodup ∧
      ∀ cell record, state.neighbours.get? cell = some record → record.history.samples ≠ [] →
        record.history.samples.getLast? = some record.rsrq := by
  have reflects := (fresh_of_start started).reflects requests ue
  rw [Store.stateOf_of_state? known, historyLength_of_start started] at reflects
  refine ⟨reflects, reflects.filed.nodup_cells, ?_⟩
  intro cell record found someSample
  exact reflects.getLast?_history found someSample

theorem state_follows_log_usual :
    let requests : List Request :=
      [.connect ⟨1⟩ ⟨5⟩ ⟨0⟩, .evaluate ⟨1⟩ ⟨2⟩ ⟨⟨10⟩, 40, 12, [⟨⟨6⟩, some 50, some 25⟩]⟩,
        .remove ⟨1⟩, .connect ⟨1⟩ ⟨7⟩ ⟨20⟩,
        .report ⟨1⟩ ⟨2⟩ ⟨⟨30⟩, 40, 12, [⟨⟨6⟩, some 50, some 20⟩, ⟨⟨8⟩, some 45, none⟩]⟩,
        .offer ⟨⟨1⟩, some ⟨6⟩⟩, .conclude ⟨1⟩ .completed ⟨40⟩,
        .evaluate ⟨1⟩ ⟨2⟩ ⟨⟨50⟩, 40, 12, [⟨⟨6⟩, some 50, some 22⟩]⟩]
    ∃ (engine : Engine Float) (state : UeState),
      (start (.ofAlgorithm (.typeOne .usual))).result = .ok engine ∧
      (engine.run requests).store.state? ⟨1⟩ = some state ∧
      engine.log ⟨1⟩ requests =
        [.served ⟨7⟩ ⟨20⟩, .heard ⟨6⟩ 50 20 ⟨30⟩, .served ⟨6⟩ ⟨40⟩, .heard ⟨6⟩ 50 22 ⟨50⟩] ∧
      state.Reflects 6 (engine.log ⟨1⟩ requests) :=
  ⟨_, _, rfl, rfl, by rfl,
    (@state_follows_log Float _ _ ⟨1⟩ (.ofAlgorithm (.typeOne .usual)) rfl _ _ rfl).1⟩

end Engine

end Handover
