import Handover.Proofs.Engine.Start
import Handover.Proofs.Measurement.Configurator
import Handover.Strategy.Choice

/-!
# Identities of registered events

A strategy registers its events one after the other and gives up at the first one
that is refused.  Identities are handed out in order, so a fuzzy strategy that
registers first gets the first two of them, and a started engine runs it with these.
-/

namespace Handover

namespace Strategy

variable {α : Type}

section Attempts

variable {σ : Type} (strategy : σ) {configurator : Configurator} {event : MeasurementEvent}
  {error : ConfigError α}

theorem registerOne_of_accepts (note : σ → MeasId → σ) (accepted : configurator.Accepts event) :
    registerOne (α := α) strategy configurator event note =
      ⟨note strategy configurator.nextId, configurator.add event, .ok ()⟩ := by
  rw [registerOne, Configurator.register_of_accepts accepted]

theorem registerOne_of_refuses (note : σ → MeasId → σ)
    (refused : configurator.Refuses event error) :
    registerOne strategy configurator event note = ⟨strategy, configurator, .error error⟩ := by
  rw [registerOne, Configurator.register_of_refuses refused]

/-- Registers two events, the second one as asked for by the strategy that has noted the
first. -/
def registerTwo (configurator : Configurator) (first : MeasurementEvent)
    (second : σ → MeasurementEvent) (note noteSecond : σ → MeasId → σ) : Registration α σ :=
  (registerOne strategy configurator first note).andThen fun registered events =>
    registerOne registered events (second registered) noteSecond

variable {first : MeasurementEvent} {second : σ → MeasurementEvent}
  {note : σ → MeasId → σ} (noteSecond : σ → MeasId → σ)

theorem registerTwo_of_accepts (accepted : configurator.Accepts first)
    (acceptedSecond :
      (configurator.add first).Accepts (second (note strategy configurator.nextId))) :
    registerTwo (α := α) strategy configurator first second note noteSecond =
      ⟨noteSecond (note strategy configurator.nextId) (configurator.add first).nextId,
        (configurator.add first).add (second (note strategy configurator.nextId)), .ok ()⟩ := by
  rw [registerTwo, registerOne_of_accepts strategy note accepted]
  exact registerOne_of_accepts _ noteSecond acceptedSecond

theorem registerTwo_of_refuses (refused : configurator.Refuses first error) :
    registerTwo strategy configurator first second note noteSecond =
      ⟨strategy, configurator, .error error⟩ := by
  rw [registerTwo, registerOne_of_refuses strategy note refused]
  rfl

/-- The first event stays registered and noted if the second one is refused. -/
theorem registerTwo_of_half (accepted : configurator.Accepts first)
    (refused :
      (configurator.add first).Refuses (second (note strategy configurator.nextId)) error) :
    registerTwo strategy configurator first second note noteSecond =
      ⟨note strategy configurator.nextId, configurator.add first, .error error⟩ := by
  rw [registerTwo, registerOne_of_accepts strategy note accepted]
  exact registerOne_of_refuses _ noteSecond refused

/-- An attempt for two events succeeds only if both of them are accepted. -/
theorem accepts_of_registerTwo
    (done : (registerTwo (α := α) strategy configurator first second note noteSecond).result =
      .ok ()) :
    configurator.Accepts first ∧
      (configurator.add first).Accepts (second (note strategy configurator.nextId)) := by
  rcases configurator.accepts_or_refuses (α := α) first with accepted | ⟨error, refused⟩
  · refine ⟨accepted, ((configurator.add first).accepts_or_refuses (α := α) _).resolve_right ?_⟩
    rintro ⟨error, refused⟩
    rw [registerTwo_of_half strategy noteSecond accepted refused] at done
    cases done
  · rw [registerTwo_of_refuses strategy noteSecond refused] at done
    cases done

end Attempts

/-- The strategy with its events noted under the first two identities. -/
def FuzzyInference.noted (strategy : FuzzyInference α) : FuzzyInference α :=
  { strategy with servingEvent := some ⟨1⟩, discoveryEvent := some ⟨2⟩ }

theorem FuzzyInference.register_ok [Scalar α] {strategy : FuzzyInference α}
    {interval : ReportInterval}
    (done : (strategy.register .empty interval).result = .ok ()) :
    (strategy.register .empty interval).strategy = strategy.noted := by
  obtain ⟨serving, discovery⟩ := accepts_of_registerTwo strategy _ done
  exact congrArg Registration.strategy (registerTwo_of_accepts strategy _ serving discovery)

end Strategy

namespace HandoverStrategy

variable {α : Type}

open Strategy

/-- The fuzzy strategy, if it is one. -/
def fuzzy? : HandoverStrategy α → Option (FuzzyInference α)
  | typeOne part => some part
  | typeTwo part => some part
  | _ => none

variable [Scalar α]

/-- Both fuzzy strategies evaluate reports in the same way. -/
theorem evaluate_of_fuzzy {strategy : HandoverStrategy α} {part : FuzzyInference α}
    (fuzzy : strategy.fuzzy? = some part) (ue : UeId) (id : MeasId) (report : Report)
    (store : Store) : strategy.evaluate ue id report store = part.evaluate ue id report store := by
  cases strategy with
  | typeOne part | typeTwo part =>
      cases fuzzy
      rfl
  | noOp | bestNeighbour _ | offset _ => cases fuzzy

omit [Scalar α] in
theorem historyLength_of_fuzzy {strategy : HandoverStrategy α} {part : FuzzyInference α}
    (fuzzy : strategy.fuzzy? = some part) : strategy.historyLength = part.predictorWindow := by
  cases strategy with
  | typeOne part | typeTwo part =>
      cases fuzzy
      rfl
  | noOp | bestNeighbour _ | offset _ => cases fuzzy

omit [Scalar α] in
theorem eventIds_of_fuzzy {strategy : HandoverStrategy α} {part : FuzzyInference α}
    (fuzzy : strategy.fuzzy? = some part) :
    strategy.eventIds = [part.servingEvent, part.discoveryEvent] := by
  cases strategy with
  | typeOne part | typeTwo part =>
      cases fuzzy
      rfl
  | noOp | bestNeighbour _ | offset _ => cases fuzzy

theorem register_fuzzy {strategy : HandoverStrategy α} {part : FuzzyInference α}
    (fuzzy : strategy.fuzzy? = some part) {interval : ReportInterval}
    (done : (strategy.register .empty interval).result = .ok ()) :
    (strategy.register .empty interval).strategy.fuzzy? = some part.noted := by
  cases strategy with
  | typeOne part | typeTwo part =>
      cases fuzzy
      exact congrArg some (FuzzyInference.register_ok done)
  | noOp | bestNeighbour _ | offset _ => cases fuzzy

end HandoverStrategy

end Handover
