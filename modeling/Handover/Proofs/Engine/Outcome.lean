import Handover.Proofs.Engine.Target

/-!
# After a completed handover

The host has two ways to tell that a handover has completed.  If it tells of the
outcome, the target serves the terminal from then on, and no report starts a
handover to it until something gives the terminal another serving cell.  If it
only acknowledges the handover, the serving cell stays what it was, and the next
report may start a handover to the cell that the terminal is already on.
-/

namespace Handover

open UeState

/-! ## Reports tell of no serving cell -/

theorem HandoverStrategy.serving?_of_mem {α : Type} [Scalar α] {strategy : HandoverStrategy α}
    {state : UeState} {id : MeasId} {report : Report} {entry : Observation}
    (member : entry ∈ strategy.observations state id report) : entry.serving? = none := by
  unfold observations at member
  split at member
  · rcases List.mem_filterMap.mp member with ⟨result, _, observed⟩
    unfold NeighbourResult.observation? at observed
    split at observed
    · cases observed
      rfl
    · cases observed
  · split at member
    · cases member
    · split at member
      · rw [List.mem_singleton.mp member]
        rfl
      · cases member

namespace Engine

variable {α : Type} [Scalar α]

/-- The request may give a terminal another serving cell. -/
def Request.Reseats (ue : UeId) : Request → Prop
  | .report _ _ _ => False
  | .evaluate _ _ _ => False
  | .offer _ => False
  | .acknowledge _ _ => False
  | .connect other _ _ => other = ue
  | .conclude other outcome _ => other = ue ∧ outcome = .completed
  | .remove other => other = ue

theorem serving?_of_mem_observe {engine : Engine α} {request : Request} {entry : Observation}
    (stays : ¬request.Reseats request.ue) (member : entry ∈ engine.observe request) :
    entry.serving? = none := by
  cases request with
  | report ue id report => exact HandoverStrategy.serving?_of_mem member
  | evaluate ue id report => exact HandoverStrategy.serving?_of_mem member
  | offer decision => cases member
  | acknowledge ue outcome => cases member
  | connect ue cell time => exact absurd rfl stays
  | conclude ue outcome time =>
      cases outcome with
      | completed => exact absurd ⟨rfl, rfl⟩ stays
      | failed => cases member
  | remove ue => cases member

/-! ## The serving cell stays -/

variable {engine : Engine α} {ue : UeId}

theorem Fresh.handle_servingCell (fresh : engine.Fresh) (requests : List Request)
    {request : Request} (stays : ¬request.Reseats ue) :
    (((engine.run requests).handle request).engine.store.stateOf ue).servingCell =
      ((engine.run requests).store.stateOf ue).servingCell := by
  by_cases about : request.ue = ue
  · subst about
    have kept : request ≠ .remove request.ue := by
      intro removal
      rw [removal] at stays
      exact stays rfl
    -- The serving cell is read off the log, which gains no entry that tells of one.
    have before := fresh.reflects requests request.ue
    rw [(handle_reflects kept before).servingCell, before.servingCell,
      Log.last?_append_of_silent _ _ fun _ => serving?_of_mem_observe stays]
  · rw [stateOf_handle_of_ne _ about]

theorem Fresh.run_servingCell (fresh : engine.Fresh) (requests later : List Request)
    (stays : ∀ request ∈ later, ¬request.Reseats ue) :
    (((engine.run requests).run later).store.stateOf ue).servingCell =
      ((engine.run requests).store.stateOf ue).servingCell := by
  induction later using List.reverseRecOn with
  | nil => rfl
  | append_singleton later request ih =>
      rw [← ih fun earlier member => stays earlier (List.mem_append_left _ member)]
      rw [run_append, run_cons, run_nil, ← run_append]
      apply fresh.handle_servingCell
      exact stays request (List.mem_append_right _ (List.mem_singleton_self request))

/-! ## The two ways to tell of a completed handover -/

/-- The cell serves a terminal, and no report starts a handover to it as long as
nothing gives the terminal another serving cell. -/
def Settled (engine : Engine α) (ue : UeId) (cell : CellId) : Prop :=
  (engine.store.stateOf ue).servingCell = some cell ∧
    ∀ later, (∀ request ∈ later, ¬request.Reseats ue) → ∀ id report,
      .trigger ue cell ∉ ((engine.run later).handle (.report ue id report)).calls

/-- In an engine after any run, a cell that serves a terminal is settled. -/
theorem Fresh.settled (fresh : engine.Fresh) (requests : List Request) {cell : CellId}
    (serving : ((engine.run requests).store.stateOf ue).servingCell = some cell) :
    (engine.run requests).Settled ue cell := by
  refine ⟨serving, ?_⟩
  intro later stays id report called
  have still := (fresh.run_servingCell requests later stays).trans serving
  have filed := fresh.filed (requests ++ later) ue
  rw [run_append] at filed
  have target := evaluate_target filed (report_trigger called).2
  exact target.1 still.symm

omit [Scalar α] in
/-- The pending target is where the terminal lands. -/
theorem Marked.landing? (marked : engine.Marked) {cell : CellId}
    (pending : (engine.store.stateOf ue).pendingTarget = some cell) :
    (engine.store.stateOf ue).landing? .completed = some cell := by
  have outstanding : (engine.store.stateOf ue).outstanding = true := by
    rw [marked ue, pending]
    rfl
  rw [UeState.landing?, if_pos outstanding, pending]

omit [Scalar α] in
/-- To tell of a completion is to acknowledge the handover and to make its target
the serving cell. -/
theorem Marked.conclude_stateOf (marked : engine.Marked) {cell : CellId}
    (pending : (engine.store.stateOf ue).pendingTarget = some cell) (time : Instant) :
    (engine.conclude ue .completed time).engine.store.stateOf ue =
      ((engine.acknowledge ue .completed).engine.store.stateOf ue).setServing cell time := by
  rw [engine.conclude_stateOf, marked.landing? pending, acknowledge_stateOf]

/-- After any run of a started engine, the target of an outstanding handover is
settled once the host has told of its completion.  If the host only acknowledges
the handover, the serving cell stays what it was. -/
theorem settled_of_completed {config : EngineConfig α}
    (started : (start config).result = .ok engine) (requests : List Request) {cell : CellId}
    (pending : ((engine.run requests).store.stateOf ue).pendingTarget = some cell)
    (time : Instant) :
    let reached := engine.run requests
    let concluded := (reached.handle (.conclude ue .completed time)).engine
    let acknowledged := (reached.handle (.acknowledge ue .completed)).engine
    concluded.Settled ue cell ∧
      concluded.store.stateOf ue = (acknowledged.store.stateOf ue).setServing cell time ∧
      (acknowledged.store.stateOf ue).servingCell = (reached.store.stateOf ue).servingCell := by
  intro reached concluded acknowledged
  have fresh := fresh_of_start started
  have seated : concluded.store.stateOf ue =
      (acknowledged.store.stateOf ue).setServing cell time :=
    (fresh.marked.run requests).conclude_stateOf pending time
  refine ⟨?_, seated, ?_⟩
  · have concludes : concluded = engine.run (requests ++ [.conclude ue .completed time]) := by
      rw [run_append]
      rfl
    have serving := congrArg UeState.servingCell seated
    rw [concludes] at serving ⊢
    exact fresh.settled _ serving
  · have settles : acknowledged.store.stateOf ue = Dispatch.settle (reached.store.stateOf ue) :=
      reached.acknowledge_stateOf ue .completed
    rw [settles, Dispatch.settle]

theorem settled_of_completed_usual :
    let requests : List Request :=
      [.report ⟨1⟩ ⟨2⟩ ⟨⟨100000⟩, 40, 10, [⟨⟨5⟩, some 45, some 12⟩]⟩,
        .report ⟨1⟩ ⟨1⟩ ⟨⟨200000⟩, 40, 10, []⟩]
    ∃ engine : Engine Float, (start .usual).result = .ok engine ∧
      ((engine.run requests).store.stateOf ⟨1⟩).pendingTarget = some ⟨5⟩ ∧
      ((engine.run requests).handle (.conclude ⟨1⟩ .completed ⟨250000⟩)).engine.Settled
        ⟨1⟩ ⟨5⟩ := by
  intro requests
  obtain ⟨engine, started, pending⟩ : ∃ engine : Engine Float,
      (start .usual).result = .ok engine ∧
        ((engine.run requests).store.stateOf ⟨1⟩).pendingTarget = some ⟨5⟩ :=
    ⟨_, rfl, by decide⟩
  have settled := settled_of_completed started requests pending ⟨250000⟩
  exact ⟨engine, started, pending, settled.1⟩

/-- A handover to cell 5 is acknowledged as completed: no serving cell is recorded,
and the next report starts a handover to cell 5 again. -/
theorem acknowledged_target_unsettled :
    let requests : List Request :=
      [.report ⟨1⟩ ⟨2⟩ ⟨⟨100000⟩, 40, 10, [⟨⟨5⟩, some 45, some 12⟩]⟩,
        .report ⟨1⟩ ⟨1⟩ ⟨⟨200000⟩, 40, 10, []⟩]
    ∃ engine : Engine Float, (start .usual).result = .ok engine ∧
      ((engine.run requests).store.stateOf ⟨1⟩).pendingTarget = some ⟨5⟩ ∧
      let acknowledged := ((engine.run requests).handle (.acknowledge ⟨1⟩ .completed)).engine
      (acknowledged.store.stateOf ⟨1⟩).servingCell = none ∧
        (acknowledged.handle (.report ⟨1⟩ ⟨1⟩ ⟨⟨300000⟩, 40, 10, []⟩)).calls =
          [.trigger ⟨1⟩ ⟨5⟩] ∧
        ¬acknowledged.Settled ⟨1⟩ ⟨5⟩ :=
  ⟨_, rfl, by decide, by decide, by decide, fun settled => nomatch settled.1⟩

end Engine

end Handover
