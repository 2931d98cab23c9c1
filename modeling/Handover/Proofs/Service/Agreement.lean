import Handover.Proofs.Engine.Confined
import Handover.Proofs.Service.Coherence
import Handover.Proofs.Service.Host

/-!
# Engine and service agree

An engine with a fuzzy strategy and the service of the same configuration, told
of the same events, come to hold the same of every terminal, although one knows
it by its identity and the other by its radio link.  Asked for a target, they
give the same answer.
-/

namespace Handover

open Strategy

/-! ## Neighbours without a name -/

/-- No neighbour of any terminal goes by the reserved cell number. -/
def Store.Named (store : Store) : Prop :=
  ∀ ue, (store.stateOf ue).Named

namespace Store

theorem named_empty (historyLength : Nat) : (empty historyLength).Named := by
  intro ue
  exact UeState.named_fresh ue historyLength

theorem Named.put {store : Store} (named : store.Named) {ue : UeId} {state : UeState}
    (new : state.Named) : (store.put ue state).Named :=
  Each.put named new

theorem Named.record {store : Store} (named : store.Named) {ue : UeId} {time : Instant}
    {readings : List Reading} (proper : ∀ reading ∈ readings, reading.cell ≠ .none) :
    (store.record ue time readings).Named := by
  induction readings generalizing store with
  | nil => exact named
  | cons reading rest ih =>
      apply ih
      · apply named.put
        exact (named ue).updateNeighbour (proper reading List.mem_cons_self) _ _ _
      · intro other member
        exact proper other (List.mem_cons_of_mem reading member)

end Store

/-! ## The engine and the service side by side -/

variable {α : Type}

/-- An engine and a service that run the same evaluator and hold the same of
every terminal, at a host with these links. -/
structure Matching (part : FuzzyInference α) (links : Links) (engine : Engine α)
    (service : Service α) : Prop where
  strategy : engine.strategy.fuzzy? = some part.noted
  evaluator : service.evaluator = part.evaluator
  store : engine.store = service.store
  links : ∀ ue rnti, links ue = some rnti ↔ service.ueOf? rnti = some ue
  coherent : service.Coherent
  named : service.store.Named

namespace Matching

variable {part : FuzzyInference α} {links : Links} {engine : Engine α} {service : Service α}

theorem bound (matching : Matching part links engine service) {ue : UeId} {rnti : Rnti}
    (held : links ue = some rnti) :
    ∃ binding, service.bindings.get? rnti = some binding ∧ binding.ue = ue :=
  Option.map_eq_some_iff.mp ((matching.links ue rnti).mp held)

/-- The host and the service give a link to a terminal in the same way. -/
theorem links_connect (matching : Matching part links engine service) {ue : UeId} {rnti : Rnti}
    (free : ∀ other, links other = some rnti → other = ue) (cell : CellId) (time : Instant)
    (other : UeId) (link : Rnti) :
    Function.update links ue (some rnti) other = some link ↔
      (service.serve time ue cell rnti).ueOf? link = some other := by
  by_cases new : link = rnti
  · subst new
    rw [Service.ueOf?_serve_self, Option.some.injEq]
    by_cases self : other = ue
    · rw [self, Function.update_self]
      exact ⟨fun _ => rfl, fun _ => rfl⟩
    · rw [Function.update_of_ne self]
      exact ⟨fun taken => absurd (free other taken) self, fun same => absurd same.symm self⟩
  · rw [Service.ueOf?_serve_of_ne _ _ _ _ _ new]
    by_cases self : other = ue
    · rw [self, Function.update_self]
      constructor
      · intro taken
        exact absurd (Option.some.inj taken).symm new
      · rintro ⟨_, distinct⟩
        exact absurd rfl distinct
    · rw [Function.update_of_ne self, matching.links]
      exact ⟨fun held => ⟨held, self⟩, And.left⟩

theorem connect (matching : Matching part links engine service) {ue : UeId} {rnti : Rnti}
    (free : ∀ other, links other = some rnti → other = ue) (cell : CellId) (time : Instant) :
    Matching part (Function.update links ue (some rnti)) (engine.connect ue cell time).engine
      (service.serve time ue cell rnti) := by
  have idle : (engine.store.stateOf ue).outstanding = false := by
    rw [matching.store]
    exact matching.coherent.settled ue
  have held : service.ueOf? rnti = none ∨ service.ueOf? rnti = some ue := by
    cases holder : service.ueOf? rnti with
    | none => exact .inl rfl
    | some other =>
        rw [free other ((matching.links other rnti).mpr holder)]
        exact .inr rfl
  have stored : (service.serve time ue cell rnti).store =
      service.store.change ue fun state => state.setServing cell time := by
    rw [Service.serve_store, service.evict_of_held ue rnti held]
  constructor
  · exact matching.strategy
  · exact matching.evaluator
  · rw [engine.connect_store idle, stored, matching.store]
  · exact matching.links_connect free cell time
  · exact matching.coherent.serve time ue cell rnti
  · rw [stored]
    exact matching.named.put ((matching.named ue).setServing cell time)

variable [Scalar α]

theorem evaluate (matching : Matching part links engine service) (ue : UeId) (id : MeasId)
    (report : Report) :
    engine.strategy.evaluate ue id report engine.store =
      part.noted.evaluate ue id report service.store := by
  rw [HandoverStrategy.evaluate_of_fuzzy matching.strategy, matching.store]

/-- After a request and calls that leave the links alone, only the stores have to
be compared. -/
theorem of_store (matching : Matching part links engine service) (request : Engine.Request)
    {calls : List ServiceCall} {store : Store}
    (after : service.run calls = { service with store := store })
    (same : (engine.handle request).engine.store = store) (named : store.Named) :
    Matching part links (engine.handle request).engine (service.run calls) := by
  have coherent := matching.coherent.run calls
  rw [after] at coherent ⊢
  constructor
  · rw [(Engine.confined_handle request).strategy]
    exact matching.strategy
  · exact matching.evaluator
  · exact same
  · exact matching.links
  · exact coherent
  · exact named

/-- An event keeps the engine and the service side by side. -/
theorem handle (matching : Matching part links engine service) {event : HostEvent}
    (allowed : event.Allowed part.servingThreshold links) :
    Matching part (event.after links) (engine.handle (event.request ⟨1⟩ ⟨2⟩)).engine
      (service.run event.calls) := by
  cases event with
  | connect ue cell time rnti => exact matching.connect allowed cell time
  | discover ue rnti time servingRsrp servingRsrq readings =>
      rcases allowed with ⟨held, someReading, proper⟩
      rcases matching.bound held with ⟨binding, bound, rfl⟩
      refine matching.of_store _ (service.run_neighbours bound time readings) ?_
        (matching.named.record proper)
      change (engine.evaluate _ _ _).engine.store = _
      rw [engine.evaluate_store, matching.evaluate]
      exact part.discover_store binding.ue time servingRsrp servingRsrq someReading service.store
  | assess ue rnti report =>
      rcases allowed with ⟨held, poor⟩
      rcases matching.bound held with ⟨binding, bound, rfl⟩
      refine matching.of_store _ (service.evaluate_of_bound report.time bound report.servingRsrq)
        ?_ (matching.named.put (service.evaluator.selectTarget_named (matching.named _) _ _))
      change (engine.evaluate _ _ _).engine.store = _
      rw [engine.evaluate_store, matching.evaluate, part.assess binding.ue poor,
        FuzzyInference.infer, matching.evaluator]

theorem run (matching : Matching part links engine service) {before after : List HostEvent}
    (admissible : Admissible part.servingThreshold links (before ++ after)) :
    ∃ links, Admissible part.servingThreshold links after ∧
      Matching part links (engine.run (before.map (HostEvent.request ⟨1⟩ ⟨2⟩)))
        (service.run (before.flatMap HostEvent.calls)) := by
  induction before generalizing links engine service with
  | nil => exact ⟨links, admissible, matching⟩
  | cons event rest ih =>
      rcases admissible with ⟨allowed, admissible⟩
      rw [List.map_cons, List.flatMap_cons, Engine.run_cons, Service.run_append]
      exact ih (matching.handle allowed) admissible

end Matching

variable [Scalar α]

/-! ## Answers -/

/-- A decision of the engine and an answer of the service say the same: the
reserved cell stands for no target. -/
structure SameTarget (decision : Decision) (answer : CellId) : Prop where
  target : ∀ cell, decision.target = some cell ↔ answer = cell ∧ cell ≠ .none
  abstain : decision.target = none ↔ answer = .none

theorem sameTarget_abstain (ue : UeId) : SameTarget (.abstain ue) .none := by
  constructor
  · intro cell
    constructor
    · intro chosen
      cases chosen
    · rintro ⟨rfl, distinct⟩
      exact absurd rfl distinct
  · exact ⟨fun _ => rfl, fun _ => rfl⟩

theorem sameTarget_handover (ue : UeId) {target : CellId} (proper : target ≠ .none) :
    SameTarget (.handover ue target) target := by
  constructor
  · intro cell
    constructor
    · intro same
      cases same
      exact ⟨rfl, proper⟩
    · rintro ⟨rfl, _⟩
      rfl
  · constructor
    · intro absent
      cases absent
    · intro absent
      exact absurd absent proper

/-- A report of a poor serving cell is answered alike. -/
theorem Matching.answers {part : FuzzyInference α} {links : Links} {engine : Engine α}
    {service : Service α} (matching : Matching part links engine service) {ue : UeId}
    {rnti : Rnti} {report : Report} (held : links ue = some rnti)
    (poor : report.servingRsrq ≤ part.servingThreshold) :
    ∃ decision answer,
      (engine.handle (.evaluate ue ⟨1⟩ report)).answer = .decision decision ∧
      (service.handle (.evaluate report.time rnti report.servingRsrp report.servingRsrq)).answer =
        some answer ∧
      decision.ue = ue ∧ SameTarget decision answer := by
  rcases matching.bound held with ⟨binding, bound, rfl⟩
  have inferred := part.assess binding.ue poor service.store
  rw [← matching.evaluate, FuzzyInference.infer, ← matching.evaluator] at inferred
  cases chosen : (service.evaluator.selectTarget (service.store.stateOf binding.ue) report.time
      report.servingRsrq).choice with
  | none =>
      refine ⟨.abstain binding.ue, .none, ?_, ?_, rfl, sameTarget_abstain binding.ue⟩
      · simp only [Engine.handle, Engine.evaluate, Engine.Step.map, inferred, chosen,
          Option.map_none, Decision.abstain]
      · simp only [Service.handle, Service.evaluate, bound, chosen]
  | some choice =>
      have proper : choice.1 ≠ .none :=
        service.evaluator.selectTarget_ne_none (matching.named binding.ue) chosen
      refine ⟨.handover binding.ue choice.1, choice.1, ?_, ?_, rfl,
        sameTarget_handover binding.ue proper⟩
      · simp only [Engine.handle, Engine.evaluate, Engine.Step.map, inferred, chosen,
          Option.map_some, Decision.handover]
      · simp only [Service.handle, Service.evaluate, bound, chosen]

/-! ## Agreement -/

/-- An engine that knows its events by these identities and a service, both told
of the same events. -/
structure Agree (poor found : MeasId) (engine : Engine α) (service : Service α)
    (events : List HostEvent) : Prop where
  /-- They hold the same of every terminal. -/
  stores : (engine.run (events.map (HostEvent.request poor found))).store =
    (service.run (events.flatMap HostEvent.calls)).store
  /-- They answered every report of a poor serving cell alike. -/
  decisions : ∀ before ue rnti report after, events = before ++ .assess ue rnti report :: after →
    ∃ decision answer,
      ((engine.run (before.map (HostEvent.request poor found))).handle
        (.evaluate ue poor report)).answer = .decision decision ∧
      ((service.run (before.flatMap HostEvent.calls)).handle
        (.evaluate report.time rnti report.servingRsrp report.servingRsrq)).answer =
          some answer ∧
      decision.ue = ue ∧ SameTarget decision answer

theorem Matching.agree {part : FuzzyInference α} {links : Links} {engine : Engine α}
    {service : Service α} (matching : Matching part links engine service)
    {events : List HostEvent} (admissible : Admissible part.servingThreshold links events) :
    Agree ⟨1⟩ ⟨2⟩ engine service events := by
  constructor
  · rw [← List.append_nil events] at admissible
    rcases matching.run admissible with ⟨links, _, matching⟩
    exact matching.store
  · rintro before ue rnti report after rfl
    rcases matching.run admissible with ⟨links, ⟨⟨held, poor⟩, _⟩, matching⟩
    exact matching.answers held poor

theorem Service.typeOne_of_valid {fuzzy : FuzzyConfig α (Fuzzy.Membership α)}
    (valid : fuzzy.validate = .ok ()) {part : FuzzyInference α}
    (built : FuzzyInference.typeOne fuzzy = .ok part) :
    Service.typeOne fuzzy = .ok (.ofEvaluator part.evaluator part.predictorWindow) ∧
      part.servingThreshold = fuzzy.servingThreshold := by
  rw [Service.typeOne, valid, built]
  rcases exists_of_bind_eq_ok built with ⟨evaluator, _, whole⟩
  cases whole
  exact ⟨rfl, rfl⟩

theorem Service.typeTwo_of_valid {fuzzy : FuzzyConfig α (Fuzzy.Footprint α)}
    (valid : fuzzy.validate = .ok ()) {part : FuzzyInference α}
    (built : FuzzyInference.typeTwo fuzzy = .ok part) :
    Service.typeTwo fuzzy = .ok (.ofEvaluator part.evaluator part.predictorWindow) ∧
      part.servingThreshold = fuzzy.servingThreshold := by
  rw [Service.typeTwo, valid, built]
  rcases exists_of_bind_eq_ok built with ⟨evaluator, _, whole⟩
  cases whole
  exact ⟨rfl, rfl⟩

/-- An engine that has just started with a fuzzy strategy matches the service that
knows nothing yet. -/
theorem matching_of_start {config : EngineConfig α} {engine : Engine α}
    (started : (Engine.start config).result = .ok engine) {strategy : HandoverStrategy α}
    (chosen : HandoverStrategy.ofConfig config.algorithm = .ok strategy)
    {part : FuzzyInference α} (fuzzy : strategy.fuzzy? = some part) :
    Matching part (fun _ => none) engine
      (.ofEvaluator part.evaluator part.predictorWindow) := by
  rcases Engine.start_eq_ok started with ⟨interval, same, _, chosenAgain, registered, rfl⟩
  rw [chosen] at chosenAgain
  cases chosenAgain
  constructor
  · exact HandoverStrategy.register_fuzzy fuzzy registered
  · rfl
  · rw [HandoverStrategy.historyLength_of_fuzzy fuzzy]
    rfl
  · intro ue rnti
    exact ⟨nofun, nofun⟩
  · exact Service.coherent_ofEvaluator _ _
  · exact Store.named_empty _

/-- The engine agrees with a service on whatever can happen at a host. -/
def AgreesWith (engine : Engine α) (threshold : Level) (service : Service α) : Prop :=
  ∃ poor found, engine.strategy.eventIds = [some poor, some found] ∧
    ∀ events, Admissible threshold (fun _ => none) events →
      Agree poor found engine service events

theorem agreesWith_of_start {config : EngineConfig α} {engine : Engine α}
    (started : (Engine.start config).result = .ok engine) {strategy : HandoverStrategy α}
    (chosen : HandoverStrategy.ofConfig config.algorithm = .ok strategy)
    {part : FuzzyInference α} (fuzzy : strategy.fuzzy? = some part) :
    AgreesWith engine part.servingThreshold
      (.ofEvaluator part.evaluator part.predictorWindow) := by
  have matching := matching_of_start started chosen fuzzy
  refine ⟨⟨1⟩, ⟨2⟩, ?_, fun events admissible => matching.agree admissible⟩
  exact HandoverStrategy.eventIds_of_fuzzy matching.strategy

/-- A started engine with a fuzzy algorithm agrees with the service of the same
parameters, which can be built. -/
theorem engine_agrees_with_service {config : EngineConfig α} {engine : Engine α}
    (started : (Engine.start config).result = .ok engine) :
    (∀ fuzzy, config.algorithm = .typeOne fuzzy → ∃ service,
      Service.typeOne fuzzy = .ok service ∧
        AgreesWith engine fuzzy.servingThreshold service) ∧
    (∀ fuzzy, config.algorithm = .typeTwo fuzzy → ∃ service,
      Service.typeTwo fuzzy = .ok service ∧
        AgreesWith engine fuzzy.servingThreshold service) := by
  rcases Engine.start_eq_ok started with ⟨_, strategy, valid, chosen, _⟩
  rcases exists_of_bind_eq_ok valid with ⟨_, _, valid⟩
  constructor
  · intro fuzzy algorithm
    have algorithmic := chosen
    rw [algorithm] at valid algorithmic
    rcases exists_of_map_eq_ok algorithmic with ⟨part, built, rfl⟩
    rcases Service.typeOne_of_valid valid built with ⟨service, threshold⟩
    have agrees := agreesWith_of_start started chosen rfl
    rw [threshold] at agrees
    exact ⟨_, service, agrees⟩
  · intro fuzzy algorithm
    have algorithmic := chosen
    rw [algorithm] at valid algorithmic
    rcases exists_of_map_eq_ok algorithmic with ⟨part, built, rfl⟩
    rcases Service.typeTwo_of_valid valid built with ⟨service, threshold⟩
    have agrees := agreesWith_of_start started chosen rfl
    rw [threshold] at agrees
    exact ⟨_, service, agrees⟩

theorem engine_agrees_with_service_usual :
    let events : List HostEvent :=
      [.connect ⟨1⟩ ⟨5⟩ ⟨0⟩ ⟨10⟩, .discover ⟨1⟩ ⟨10⟩ ⟨20⟩ 40 12 [⟨⟨6⟩, 50, 25⟩, ⟨⟨7⟩, 45, 20⟩],
        .connect ⟨1⟩ ⟨6⟩ ⟨30⟩ ⟨12⟩, .connect ⟨2⟩ ⟨5⟩ ⟨40⟩ ⟨10⟩,
        .assess ⟨1⟩ ⟨12⟩ ⟨⟨50⟩, 40, 10, []⟩]
    ∃ (engine : Engine Float) (service : Service Float),
      (Engine.start (.ofAlgorithm (.typeOne .usual))).result = .ok engine ∧
      Service.typeOne .usual = .ok service ∧
      Admissible 34 (fun _ => none) events ∧
      ∃ poor found, Agree poor found engine service events := by
  intro events
  have admissible : Admissible 34 (fun _ => none) events := by
    refine ⟨nofun, ⟨rfl, nofun, by decide⟩, ?_, ?_, ⟨rfl, by decide⟩, trivial⟩ <;>
      intro other held <;>
      by_cases first : other = ⟨1⟩ <;>
      simp [HostEvent.after, Function.update_apply, first] at held
  have agrees := @engine_agrees_with_service Float _ (.ofAlgorithm (.typeOne .usual)) _ rfl
  rcases agrees.1 _ rfl with ⟨service, built, poor, found, _, agree⟩
  exact ⟨_, service, rfl, built, admissible, poor, found, agree events admissible⟩

end Handover
