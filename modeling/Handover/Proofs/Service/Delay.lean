import Handover.Proofs.Engine.Delay
import Handover.Proofs.Service.Coherence

/-!
# Calls at a later time

The service answers the same when every call is made later by one span, and the times
of its links and its terminals are later by that span.  Together with the runs of the
engine: only differences between times matter.
-/

namespace Handover

open UeState

/-- The link bound later. -/
def Binding.delay (span : Nat) (binding : Binding) : Binding :=
  { binding with since := binding.since.plus span }

namespace ServiceCall

/-- The call made later. -/
def delay (span : Nat) : ServiceCall → ServiceCall
  | serve time ue cell rnti => .serve (time.plus span) ue cell rnti
  | neighbour time rnti cell rsrp rsrq => .neighbour (time.plus span) rnti cell rsrp rsrq
  | evaluate time rnti rsrp rsrq => .evaluate (time.plus span) rnti rsrp rsrq

/-- When a call is made. -/
def time : ServiceCall → Instant
  | serve time _ _ _ => time
  | neighbour time _ _ _ _ => time
  | evaluate time _ _ _ => time

end ServiceCall

namespace Service

variable {α : Type}

/-- The service with all its times moved. -/
def delay (span : Nat) (service : Service α) : Service α :=
  { service with
    bindings := service.bindings.map (Binding.delay span)
    store := service.store.delay span }

/-- The step with the times in its service moved. -/
def delayStep (span : Nat) (step : ServiceStep (Service α) (Warning α)) :
    ServiceStep (Service α) (Warning α) :=
  { step with service := step.service.delay span }

/-- All times that the service keeps are among the known ones. -/
structure Dated (known : Instant → Prop) (service : Service α) : Prop where
  store : service.store.Each (UeState.Dated known)
  bindings : ∀ rnti binding, service.bindings.get? rnti = some binding → known binding.since

theorem get?_delay (span : Nat) (service : Service α) (rnti : Rnti) :
    (service.delay span).bindings.get? rnti =
      (service.bindings.get? rnti).map (Binding.delay span) :=
  Table.get?_map _ _ _

variable [Scalar α]

/-- Carries out calls in order and lists every step. -/
def steps (service : Service α) : List ServiceCall → List (ServiceStep (Service α) (Warning α))
  | [] => []
  | call :: rest =>
    let step := service.handle call
    step :: step.service.steps rest

/-! ## Moving the times -/

section Moves

variable (span : Nat) (service : Service α)

omit [Scalar α] in
theorem ueOf?_delay (rnti : Rnti) : (service.delay span).ueOf? rnti = service.ueOf? rnti := by
  rw [ueOf?, get?_delay, Option.map_map]
  rfl

omit [Scalar α] in
theorem evict_delay (ue : UeId) (rnti : Rnti) :
    (service.delay span).evict ue rnti = (service.evict ue rnti).delay span := by
  rw [evict, evict, ueOf?_delay]
  cases service.ueOf? rnti with
  | none => rfl
  | some holder =>
      dsimp only
      rw [apply_ite (Store.delay span), ← Store.remove_delay]
      rfl

omit [Scalar α] in
theorem serve_delay (time : Instant) (ue : UeId) (cell : CellId) (rnti : Rnti) :
    (service.delay span).serve (time.plus span) ue cell rnti =
      (service.serve time ue cell rnti).delay span := by
  have bindings : ((service.delay span).serve (time.plus span) ue cell rnti).bindings =
      (service.serve time ue cell rnti).bindings.map (.delay span) := by
    have kept :
        (service.bindings.filter fun link binding => link == rnti || binding.ue != ue).map
            (Binding.delay span) =
          (service.bindings.map (Binding.delay span)).filter
            fun link binding => link == rnti || binding.ue != ue :=
      Table.map_filter _ _ fun _ _ => rfl
    simp only [serve, delay, Table.map_insert, kept]
    rfl
  have store : ((service.delay span).serve (time.plus span) ue cell rnti).store =
      (service.serve time ue cell rnti).store.delay span := by
    rw [serve_store, serve_store, Store.change, Store.change, evict_delay, Store.stateOf_delay,
      setServing_delay, Store.put_delay]
  exact (Service.mk.injEq ..).mpr ⟨rfl, bindings, store⟩

omit [Scalar α] in
theorem neighbour_delay (time : Instant) (rnti : Rnti) (cell : CellId) (rsrp rsrq : Level) :
    (service.delay span).neighbour (time.plus span) rnti cell rsrp rsrq =
      ((service.neighbour time rnti cell rsrp rsrq).1.delay span,
        (service.neighbour time rnti cell rsrp rsrq).2) := by
  rw [neighbour, neighbour, get?_delay]
  cases service.bindings.get? rnti with
  | none => rfl
  | some binding =>
      simp only [Option.map_some, delay, Binding.delay, Store.update_delay]

variable {span}

theorem evaluate_delay {time : Instant} (room : time.HasRoom span) (rnti : Rnti) (rsrq : Level) :
    (service.delay span).evaluate (time.plus span) rnti rsrq =
      delayStep span (service.evaluate time rnti rsrq) := by
  rw [evaluate, evaluate, get?_delay]
  cases service.bindings.get? rnti with
  | none => rfl
  | some binding =>
      simp only [Option.map_some, delay, Binding.delay, Store.stateOf_delay,
        service.evaluator.selectTarget_delay room, Inference.Selection.delay, Store.put_delay,
        delayStep]

/-- A call made later of a service with later times. -/
theorem handle_delay {call : ServiceCall} (room : call.time.HasRoom span) :
    (service.delay span).handle (call.delay span) = delayStep span (service.handle call) := by
  cases call with
  | serve time ue cell rnti =>
      simp only [handle, ServiceCall.delay, serve_delay]
      rfl
  | neighbour time rnti cell rsrp rsrq =>
      simp only [handle, ServiceCall.delay, neighbour_delay]
      rfl
  | evaluate time rnti rsrp rsrq => exact service.evaluate_delay room rnti rsrq

/-- Calls made later of a service with later times. -/
theorem steps_delay {calls : List ServiceCall} (room : ∀ call ∈ calls, call.time.HasRoom span) :
    (service.delay span).steps (calls.map (.delay span)) =
      (service.steps calls).map (delayStep span) := by
  induction calls generalizing service with
  | nil => rfl
  | cons call rest ih =>
      rw [List.forall_mem_cons] at room
      simp only [List.map_cons, steps, service.handle_delay room.1]
      exact congrArg _ (ih _ room.2)

end Moves

/-! ## Times that are kept -/

section Times

variable {service : Service α} {known : Instant → Prop}

omit [Scalar α] in
theorem dated_ofEvaluator (known : Instant → Prop) (evaluator : Inference.Evaluator α)
    (historyLength : Nat) : (ofEvaluator evaluator historyLength).Dated known :=
  ⟨fun ue => dated_fresh known ue historyLength, nofun⟩

/-- A call adds its own time to those that are kept. -/
theorem handle_dated (dated : service.Dated known) {call : ServiceCall} (told : known call.time) :
    (service.handle call).service.Dated known := by
  cases call with
  | serve time ue cell rnti =>
      refine ⟨service.serve_each time ue cell rnti dated.store
        (fun other => dated_fresh known other _) fun state kept => kept.setServing cell told, ?_⟩
      intro link binding held
      by_cases same : link = rnti
      · subst same
        rw [handle, serve_get?_self] at held
        cases held
        exact told
      · exact dated.bindings link binding ((serve_get?_of_ne _ _ _ _ _ same binding).mp held).1
  | neighbour time rnti cell rsrp rsrq =>
      change (service.neighbour time rnti cell rsrp rsrq).1.Dated known
      cases held : service.bindings.get? rnti with
      | none =>
          rw [neighbour_of_unbound service time held]
          exact dated
      | some binding =>
          rw [neighbour_of_bound service time held]
          have kept := (dated.store binding.ue).updateNeighbour cell rsrp rsrq told
          exact ⟨dated.store.put kept, dated.bindings⟩
  | evaluate time rnti rsrp rsrq =>
      change (service.evaluate time rnti rsrq).service.Dated known
      cases held : service.bindings.get? rnti with
      | none =>
          rw [evaluate_of_unbound service time held]
          exact dated
      | some binding =>
          rw [evaluate_of_bound service time held]
          have kept := (dated.store binding.ue).selectTarget service.evaluator time rsrq
          exact ⟨dated.store.put kept, dated.bindings⟩

/-- Every time that is kept after calls is that of one of them or was kept before. -/
theorem steps_dated (dated : service.Dated known) {calls : List ServiceCall}
    (told : ∀ call ∈ calls, known call.time) :
    ∀ step ∈ service.steps calls, step.service.Dated known := by
  induction calls generalizing service with
  | nil => exact List.forall_mem_nil _
  | cons call rest ih =>
      rw [List.forall_mem_cons] at told
      have next := handle_dated dated told.1
      exact List.forall_mem_cons.mpr ⟨next, ih next told.2⟩

end Times

end Service

/-- Only differences between times matter: a started engine and a service that are told
everything later by one span return the same step by step, and what they keep differs in
times only, each of which is later by that span. -/
theorem only_time_differences_matter {α : Type} [Scalar α] {config : EngineConfig α}
    {engine : Engine α} (started : (Engine.start config).result = .ok engine)
    (evaluator : Inference.Evaluator α) (historyLength : Nat) {span : Nat}
    {requests : List Engine.Request} {calls : List ServiceCall}
    (room : ∀ request ∈ requests, ∀ time ∈ request.time?, time.HasRoom span)
    (roomForCalls : ∀ call ∈ calls, call.time.HasRoom span) :
    let service : Service α := .ofEvaluator evaluator historyLength
    engine.steps (requests.map (.delay span)) =
        (engine.steps requests).map (Engine.Step.delay span) ∧
      (∀ step ∈ engine.steps requests, step.engine.store.Each (Dated (Instant.HasRoom span))) ∧
      service.steps (calls.map (.delay span)) =
        (service.steps calls).map (Service.delayStep span) ∧
      ∀ step ∈ service.steps calls, step.service.Dated (Instant.HasRoom span) := by
  intro service
  have fresh := Engine.fresh_of_start started
  have engineSteps := engine.steps_delay room
  rw [fresh.delay] at engineSteps
  have unheard : service.delay span = service := rfl
  have serviceSteps := service.steps_delay roomForCalls
  rw [unheard] at serviceSteps
  exact ⟨engineSteps, Engine.steps_dated (fresh.dated _) room, serviceSteps,
    Service.steps_dated (Service.dated_ofEvaluator _ evaluator historyLength) roomForCalls⟩

theorem only_time_differences_matter_usual :
    let requests : List Engine.Request :=
      [.report ⟨1⟩ ⟨2⟩ ⟨⟨10⟩, 40, 12, [⟨⟨6⟩, some 50, some 25⟩]⟩, .connect ⟨1⟩ ⟨5⟩ ⟨20⟩,
        .report ⟨1⟩ ⟨1⟩ ⟨⟨15⟩, 40, 12, []⟩, .conclude ⟨1⟩ .completed ⟨30⟩]
    let calls : List ServiceCall :=
      [.serve ⟨0⟩ ⟨1⟩ ⟨5⟩ ⟨10⟩, .neighbour ⟨20⟩ ⟨10⟩ ⟨6⟩ 50 25, .evaluate ⟨10⟩ ⟨10⟩ 40 12]
    let hour : Nat := 3600000000
    ∃ (engine : Engine Float) (service : Service Float),
      (Engine.start .usual).result = .ok engine ∧ Service.typeOne .usual = .ok service ∧
      (∀ request ∈ requests, ∀ time ∈ request.time?, time.HasRoom hour) ∧
      (∀ call ∈ calls, call.time.HasRoom hour) ∧
      engine.calls requests = [.trigger ⟨1⟩ ⟨6⟩] ∧
      engine.steps (requests.map (.delay hour)) =
        (engine.steps requests).map (Engine.Step.delay hour) ∧
      service.steps (calls.map (.delay hour)) =
        (service.steps calls).map (Service.delayStep hour) := by
  intro requests calls hour
  obtain ⟨evaluator, built⟩ : ∃ evaluator : Inference.Evaluator Float,
      Service.typeOne .usual = .ok (.ofEvaluator evaluator 6) := ⟨_, rfl⟩
  obtain ⟨engine, started, triggered⟩ : ∃ engine : Engine Float,
      (Engine.start .usual).result = .ok engine ∧ engine.calls requests = [.trigger ⟨1⟩ ⟨6⟩] :=
    ⟨_, rfl, by decide⟩
  have room : ∀ request ∈ requests, ∀ time ∈ request.time?, time.HasRoom hour := by decide
  have roomForCalls : ∀ call ∈ calls, call.time.HasRoom hour := by decide
  have same := only_time_differences_matter started evaluator 6 room roomForCalls
  exact ⟨engine, _, started, built, room, roomForCalls, triggered, same.1, same.2.2.1⟩

end Handover
