import Handover.Proofs.Engine.Target
import Handover.Proofs.Service.Coherence

/-!
# Targets are seen and do not serve

In the engine and in the service alike, a handover is decided on only to a cell
that was observed with a quality other than zero, and never to the cell that is
recorded as the serving one.
-/

namespace Handover

open UeState

namespace Service

variable {α : Type} [Scalar α] {service : Service α}

/-! ## Records of the service -/

theorem handle_filed (filed : service.store.Each Filed) (call : ServiceCall) :
    (service.handle call).service.store.Each Filed := by
  have effect := service.handle_effect call
  generalize (service.handle call).service = after at effect ⊢
  cases effect with
  | serve time ue cell rnti =>
      exact service.serve_each time ue cell rnti filed (fun other => filed_fresh other _)
        fun state filed => filed.setServing cell time
  | ignored behind unbound => exact filed
  | @wrote _ rnti binding state behind held written =>
      apply filed.put
      cases written with
      | neighbour cell rsrp rsrq time =>
          exact (filed binding.ue).updateNeighbour cell rsrp rsrq time
      | evaluation time rsrq =>
          exact service.evaluator.selectTarget_filed time rsrq (filed binding.ue)

theorem run_filed (filed : service.store.Each Filed) (calls : List ServiceCall) :
    (service.run calls).store.Each Filed := by
  induction calls generalizing service with
  | nil => exact filed
  | cons call rest ih => exact ih (handle_filed filed call)

theorem filed_run_ofEvaluator (evaluator : Inference.Evaluator α) (historyLength : Nat)
    (calls : List ServiceCall) :
    ((ofEvaluator evaluator historyLength).run calls).store.Each Filed := by
  have fresh : (ofEvaluator evaluator historyLength).store.Each Filed :=
    fun ue => filed_fresh ue historyLength
  exact run_filed fresh calls

/-! ## Answers -/

/-- An answer names a cell other than the serving one of which there is a record,
unless it names the reserved cell. -/
theorem evaluate_answer (coherent : service.Coherent) (filed : service.store.Each Filed)
    (time : Instant) (rnti : Rnti) (rsrp rsrq : Level) :
    ∃ cell, (service.handle (.evaluate time rnti rsrp rsrq)).answer = some cell ∧
      (cell ≠ .none → service.servingCell? rnti ≠ some cell ∧
        ∃ ue, service.ueOf? rnti = some ue ∧ (service.store.stateOf ue).Shows cell) := by
  change ∃ cell, (service.evaluate time rnti rsrq).answer = some cell ∧ _
  cases held : service.bindings.get? rnti with
  | none => exact ⟨.none, by rw [evaluate, held], fun proper => absurd rfl proper⟩
  | some binding =>
      refine ⟨_, evaluate_answer_of_bound service time held rsrq, ?_⟩
      intro proper
      cases picked : (service.evaluator.selectTarget (service.store.stateOf binding.ue) time
          rsrq).choice with
      | none =>
          rw [picked] at proper
          exact absurd rfl proper
      | some chosen =>
          rcases service.evaluator.selectTarget_shows (filed binding.ue) picked
            with ⟨distinct, shows⟩
          -- The link and the state name the same serving cell.
          rcases coherent.serving rnti binding held with ⟨state, known, serving, _⟩
          rw [Store.stateOf_of_state? known, serving] at distinct
          refine ⟨?_, binding.ue, by rw [ueOf?, held, Option.map_some], shows⟩
          rw [servingCell?, held, Option.map_some]
          exact distinct.symm

end Service

variable {α : Type} [Scalar α]

/-- After any run of a started engine, a report evaluates only to cells other than
the recorded serving cell, observed in the report or in the records as the
algorithm has it; so no report starts a handover to the serving cell.  After any
run of a service the same holds of its answers, unless they name the reserved
cell. -/
theorem targets_observed_and_not_serving {config : EngineConfig α} {engine : Engine α}
    (started : (Engine.start config).result = .ok engine) (requests : List Engine.Request)
    (evaluator : Inference.Evaluator α) (historyLength : Nat) (calls : List ServiceCall) :
    let reached := engine.run requests
    let service := (Service.ofEvaluator evaluator historyLength).run calls
    (∀ ue id report cell, (reached.evaluate ue id report).answer.target = some cell →
      (reached.store.stateOf ue).servingCell ≠ some cell ∧
        config.algorithm.Observes (reached.store.stateOf ue) report cell) ∧
    (∀ ue id report other cell,
      .trigger other cell ∈ (reached.handle (.report ue id report)).calls →
        (reached.store.stateOf other).servingCell ≠ some cell) ∧
    ∀ time rnti rsrp rsrq, ∃ cell,
      (service.handle (.evaluate time rnti rsrp rsrq)).answer = some cell ∧
        (cell ≠ .none → service.servingCell? rnti ≠ some cell ∧
          ∃ ue, service.ueOf? rnti = some ue ∧ (service.store.stateOf ue).Shows cell) := by
  intro reached service
  have targets : ∀ ue id report cell, (reached.evaluate ue id report).answer.target = some cell →
      (reached.store.stateOf ue).servingCell ≠ some cell ∧
        config.algorithm.Observes (reached.store.stateOf ue) report cell := by
    intro ue id report cell named
    have filed := (Engine.fresh_of_start started).filed requests ue
    rcases Engine.evaluate_target filed named with ⟨distinct, observed⟩
    rw [engine.run_strategy, Engine.observes_of_start started] at observed
    exact ⟨distinct.symm, observed⟩
  refine ⟨targets, ?_, ?_⟩
  · intro ue id report other cell called
    rcases Engine.report_trigger called with ⟨rfl, named⟩
    exact (targets other id report cell named).1
  · have coherent := (Service.coherent_ofEvaluator evaluator historyLength).run calls
    exact Service.evaluate_answer coherent (Service.filed_run_ofEvaluator _ _ calls)

theorem targets_observed_and_not_serving_usual :
    let requests : List Engine.Request :=
      [.connect ⟨1⟩ ⟨5⟩ ⟨0⟩,
        .report ⟨1⟩ ⟨2⟩ ⟨⟨10⟩, 40, 12, [⟨⟨5⟩, some 45, some 30⟩, ⟨⟨6⟩, some 50, some 25⟩]⟩]
    let poor : Report := ⟨⟨20⟩, 40, 12, []⟩
    let calls : List ServiceCall :=
      [.serve ⟨0⟩ ⟨1⟩ ⟨5⟩ ⟨10⟩, .neighbour ⟨10⟩ ⟨10⟩ ⟨6⟩ 50 25]
    ∃ (engine : Engine Float) (service : Service Float),
      (Engine.start .usual).result = .ok engine ∧ Service.typeOne .usual = .ok service ∧
      ((engine.run requests).handle (.report ⟨1⟩ ⟨1⟩ poor)).calls = [.trigger ⟨1⟩ ⟨6⟩] ∧
      ((engine.run requests).store.stateOf ⟨1⟩).servingCell ≠ some ⟨6⟩ ∧
      ∃ cell, ((service.run calls).handle (.evaluate ⟨20⟩ ⟨10⟩ 40 12)).answer = some cell ∧
        (cell ≠ .none → (service.run calls).servingCell? ⟨10⟩ ≠ some cell) := by
  intro requests poor calls
  obtain ⟨evaluator, built⟩ : ∃ evaluator : Inference.Evaluator Float,
      Service.typeOne .usual = .ok (.ofEvaluator evaluator 6) := ⟨_, rfl⟩
  obtain ⟨engine, started, triggered⟩ : ∃ engine : Engine Float,
      (Engine.start .usual).result = .ok engine ∧
        ((engine.run requests).handle (.report ⟨1⟩ ⟨1⟩ poor)).calls = [.trigger ⟨1⟩ ⟨6⟩] :=
    ⟨_, rfl, by decide⟩
  rcases targets_observed_and_not_serving started requests evaluator 6 calls
    with ⟨_, triggers, answers⟩
  have distinct := triggers ⟨1⟩ ⟨1⟩ poor ⟨1⟩ ⟨6⟩ (by rw [triggered]; exact List.mem_cons_self)
  rcases answers ⟨20⟩ ⟨10⟩ 40 12 with ⟨cell, answered, proper⟩
  exact ⟨engine, _, started, built, triggered, distinct, cell, answered,
    fun named => (proper named).1⟩

end Handover
