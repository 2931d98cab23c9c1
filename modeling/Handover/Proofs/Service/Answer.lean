import Handover.Proofs.Numeric.Extended
import Handover.Proofs.Service.Target

/-!
# What an answer says

The service answers with the number of a cell; the reserved number stands for
no target.  An answer with any other number names a neighbour that qualifies.
An answer with the reserved number means that no neighbour qualifies as long as
none was reported under that number.
-/

namespace Handover

open Fuzzy Inference

/-- The cell that a call reports as a neighbour. -/
def ServiceCall.neighbourCell? : ServiceCall → Option CellId
  | neighbour _ _ cell _ _ => some cell
  | serve _ _ _ _ => none
  | evaluate _ _ _ _ => none

namespace Service

variable {α : Type} [Scalar α]

/-- A neighbour of a terminal with this cell number qualifies as a target. -/
def Qualifying (service : Service α) (ue : UeId) (time : Instant) (servingRsrq : Level)
    (cell : CellId) : Prop :=
  ∃ record ∈ (service.store.stateOf ue).snapshot,
    service.evaluator.Qualifies (service.store.stateOf ue) time servingRsrq record ∧
      record.cell = cell

instance (service : Service α) (ue : UeId) (time : Instant) (servingRsrq : Level)
    (cell : CellId) : Decidable (service.Qualifying ue time servingRsrq cell) :=
  inferInstanceAs (Decidable (∃ record ∈ _, _ ∧ _))

section Answer

variable {service : Service α} {rnti : Rnti} {ue : UeId}

/-- An answer names a neighbour that qualifies.  If there is none, it is the
reserved cell. -/
theorem evaluate_answer_of_ueOf? (filed : service.store.Each UeState.Filed)
    (bound : service.ueOf? rnti = some ue) (time : Instant) (rsrq : Level) :
    ∃ cell, (service.evaluate time rnti rsrq).answer = some cell ∧
      (service.Qualifying ue time rsrq cell ∨
        cell = .none ∧ ¬∃ other, service.Qualifying ue time rsrq other) := by
  rcases Option.map_eq_some_iff.mp bound with ⟨binding, held, rfl⟩
  refine ⟨_, evaluate_answer_of_bound service time held rsrq, ?_⟩
  cases picked : (service.evaluator.selectTarget (service.store.stateOf binding.ue) time
      rsrq).choice with
  | some chosen => exact .inl (service.evaluator.selectTarget_qualifies (filed _) picked)
  | none =>
      refine .inr ⟨rfl, ?_⟩
      rintro ⟨other, record, known, qualifies, named⟩
      have chosen := service.evaluator.selectTarget_isSome (filed _) known qualifies
      rw [picked] at chosen
      cases chosen

end Answer

/-! ## Runs that do not report the reserved cell -/

theorem handle_named {service : Service α} (named : service.store.Each UeState.Named)
    {call : ServiceCall} (proper : call.neighbourCell? ≠ some .none) :
    (service.handle call).service.store.Each UeState.Named := by
  cases call with
  | serve time ue cell rnti =>
      exact service.serve_each time ue cell rnti named
        (fun other => UeState.named_fresh other _) fun state named => named.setServing cell time
  | neighbour time rnti cell rsrp rsrq =>
      change (service.neighbour time rnti cell rsrp rsrq).1.store.Each UeState.Named
      cases held : service.bindings.get? rnti with
      | none =>
          rw [neighbour_of_unbound service time held]
          exact named
      | some binding =>
          rw [neighbour_of_bound service time held]
          have other : cell ≠ .none := fun same => proper (congrArg some same)
          exact named.put ((named binding.ue).updateNeighbour other rsrp rsrq time)
  | evaluate time rnti rsrp rsrq =>
      change (service.evaluate time rnti rsrq).service.store.Each UeState.Named
      cases held : service.bindings.get? rnti with
      | none =>
          rw [evaluate_of_unbound service time held]
          exact named
      | some binding =>
          rw [evaluate_of_bound service time held]
          exact named.put (service.evaluator.selectTarget_named (named binding.ue) time rsrq)

theorem run_named {service : Service α} (named : service.store.Each UeState.Named)
    {calls : List ServiceCall} (proper : ∀ call ∈ calls, call.neighbourCell? ≠ some .none) :
    (service.run calls).store.Each UeState.Named := by
  induction calls generalizing service with
  | nil => exact named
  | cons call rest ih =>
      rcases List.forall_mem_cons.mp proper with ⟨first, others⟩
      exact ih (handle_named named first) others

/-! ## Answers -/

/-- A configuration by which every handover is as desirable as any other. -/
def eager : FuzzyConfig (Extended ℚ) (Membership (Extended ℚ)) :=
  let input (name : String) : Variable (Extended ℚ) (Membership (Extended ℚ)) :=
    ⟨name, ⟨0, 1, 2⟩, [⟨"ANY", .trapezoidal 0 0 1 1⟩]⟩
  let system : Definition (Extended ℚ) (Membership (Extended ℚ)) :=
    { inputs := [input servingQualityName, input neighbourQualityName]
      output := ⟨triggerName, ⟨0, 1, 2⟩, [⟨"YES", .triangular 0 1 1⟩]⟩
      rules := [.ofPairs [(servingQualityName, "ANY"), (neighbourQualityName, "ANY")] "YES"] }
  { (FuzzyConfig.usual : FuzzyConfig (Extended ℚ) (Membership (Extended ℚ))) with
    ruleBase := some ⟨system, system, system⟩ }

theorem ofEvaluator_of_typeOne {config : FuzzyConfig α (Membership α)} {service : Service α}
    (built : typeOne config = .ok service) :
    ∃ evaluator, service = ofEvaluator evaluator config.predictorWindow.toNat := by
  rcases exists_of_bind_eq_ok built with ⟨_, _, built⟩
  rcases exists_of_bind_eq_ok built with ⟨strategy, _, built⟩
  cases built
  exact ⟨strategy.evaluator, rfl⟩

/-- After any run of a service, the answer for a link that is bound names a
neighbour that qualifies, if there is one; else it is the reserved cell.  Unless
a neighbour qualifies under the reserved number, the reserved cell is the answer
exactly when no neighbour qualifies.  This takes a call that reports such a
neighbour. -/
theorem answers_qualify (evaluator : Evaluator α) (historyLength : Nat)
    (calls : List ServiceCall) {rnti : Rnti} {ue : UeId}
    (bound : ((ofEvaluator evaluator historyLength).run calls).ueOf? rnti = some ue)
    (time : Instant) (rsrp rsrq : Level) :
    let service := (ofEvaluator evaluator historyLength).run calls
    let Qualifying := service.Qualifying ue time rsrq
    ∃ cell, (service.handle (.evaluate time rnti rsrp rsrq)).answer = some cell ∧
      (cell ≠ .none → Qualifying cell) ∧
      ((∃ other, Qualifying other) → Qualifying cell) ∧
      (¬Qualifying .none → (cell = .none ↔ ¬∃ other, Qualifying other)) ∧
      ((∀ call ∈ calls, call.neighbourCell? ≠ some .none) → ¬Qualifying .none) := by
  intro service Qualifying
  have filed := filed_run_ofEvaluator evaluator historyLength calls
  rcases evaluate_answer_of_ueOf? filed bound time rsrq with ⟨cell, answered, meaning⟩
  refine ⟨cell, answered, ?_, ?_, ?_, ?_⟩
  · intro proper
    exact meaning.resolve_right fun nobody => proper nobody.1
  · intro somebody
    exact meaning.resolve_right fun nobody => nobody.2 somebody
  · intro unreserved
    constructor
    · rintro rfl
      exact (meaning.resolve_left unreserved).2
    · intro nobody
      rcases meaning with qualifies | reserved
      · exact absurd ⟨cell, qualifies⟩ nobody
      · exact reserved.1
  · rintro proper ⟨record, known, _, named⟩
    have fresh : (ofEvaluator evaluator historyLength).store.Each UeState.Named :=
      fun other => UeState.named_fresh other historyLength
    exact run_named fresh proper ue record known named

theorem answers_qualify_eager :
    let calls : List ServiceCall :=
      [.serve ⟨0⟩ ⟨7⟩ ⟨1⟩ ⟨100⟩, .neighbour ⟨10⟩ ⟨100⟩ ⟨6⟩ 50 30,
        .neighbour ⟨10⟩ ⟨100⟩ ⟨8⟩ 50 30]
    ∃ service : Service (Extended ℚ), typeOne eager = .ok service ∧
      (service.run calls).ueOf? ⟨100⟩ = some ⟨7⟩ ∧
      ((service.run calls).handle (.evaluate ⟨20⟩ ⟨100⟩ 40 12)).answer = some ⟨6⟩ ∧
      (service.run calls).Qualifying ⟨7⟩ ⟨20⟩ 12 ⟨6⟩ := by
  intro calls
  have evaluated : (typeOne eager).toOption.any (fun service =>
      (service.run calls).ueOf? ⟨100⟩ = some ⟨7⟩ ∧
        ((service.run calls).handle (.evaluate ⟨20⟩ ⟨100⟩ 40 12)).answer = some ⟨6⟩) = true := by
    decide +kernel
  rcases exists_of_any_toOption evaluated with ⟨service, built, both⟩
  rcases of_decide_eq_true both with ⟨bound, answered⟩
  rcases ofEvaluator_of_typeOne built with ⟨evaluator, rfl⟩
  rcases answers_qualify evaluator _ calls bound ⟨20⟩ 40 12 with ⟨cell, same, proper, _⟩
  cases answered.symm.trans same
  exact ⟨_, built, bound, answered, proper (by decide)⟩

theorem reserved_neighbour_hides_target :
    let calls : List ServiceCall :=
      [.serve ⟨0⟩ ⟨7⟩ ⟨1⟩ ⟨100⟩, .neighbour ⟨10⟩ ⟨100⟩ ⟨0⟩ 50 30,
        .neighbour ⟨10⟩ ⟨100⟩ ⟨6⟩ 50 30]
    ∃ service : Service (Extended ℚ), typeOne eager = .ok service ∧
      ((service.run calls).handle (.evaluate ⟨20⟩ ⟨100⟩ 40 12)).answer = some .none ∧
      (service.run calls).Qualifying ⟨7⟩ ⟨20⟩ 12 ⟨6⟩ := by
  intro calls
  have evaluated : (typeOne eager).toOption.any (fun service =>
      ((service.run calls).handle (.evaluate ⟨20⟩ ⟨100⟩ 40 12)).answer = some .none ∧
        (service.run calls).Qualifying ⟨7⟩ ⟨20⟩ 12 ⟨6⟩) = true := by decide +kernel
  rcases exists_of_any_toOption evaluated with ⟨service, built, both⟩
  exact ⟨service, built, of_decide_eq_true both⟩

end Service

end Handover
