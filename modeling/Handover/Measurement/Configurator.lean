import Handover.Measurement.Event

/-!
# Registered events

The events that a terminal is asked to report, each under an identity of its
own.  Identities are handed out in order from one; an event that is registered
twice gets two of them.
-/

namespace Handover

/-- The events registered so far, in order. -/
structure Configurator where
  /-- Identities and events. -/
  events : List (MeasId × MeasurementEvent)
deriving DecidableEq, Repr

namespace Configurator

/-- Nothing registered. -/
def empty : Configurator :=
  ⟨[]⟩

/-- Number of registered events. -/
def size (configurator : Configurator) : Nat :=
  configurator.events.length

/-- The identity for the next event. -/
def nextId (configurator : Configurator) : MeasId :=
  ⟨UInt8.ofNat (configurator.size + 1)⟩

/-- Checks an event and registers it under the next identity. -/
def register {α : Type} (configurator : Configurator) (event : MeasurementEvent) :
    Except (ConfigError α) (MeasId × Configurator) := do
  event.validate
  if measurementLimit ≤ configurator.size then
    .error .tooManyMeasurements
  .ok (configurator.nextId, ⟨configurator.events ++ [(configurator.nextId, event)]⟩)

/-- The event registered under an identity. -/
def get? (configurator : Configurator) (id : MeasId) : Option MeasurementEvent :=
  (configurator.events.find? fun entry => entry.1 == id).map Prod.snd

end Configurator

end Handover
