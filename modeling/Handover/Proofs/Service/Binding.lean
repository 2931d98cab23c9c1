import Handover.Proofs.Ue.Store
import Handover.Service

/-!
# Binding radio links

What each call of the service leaves behind, seen through lookups.  Binding a
link drops the older link of the terminal and forgets the terminal that held the
new one; the other calls write the state of the terminal behind a link, and do
nothing if there is none.
-/

namespace Handover.Service

variable {α : Type}

/-! ## Binding a link -/

section Serve

variable (service : Service α) (time : Instant) (ue : UeId) (cell : CellId) (rnti : Rnti)

@[simp]
theorem serve_get?_self :
    (service.serve time ue cell rnti).bindings.get? rnti = some ⟨ue, cell, time⟩ :=
  Table.get?_insert_self _ _ _

/-- Another link stays bound unless it was bound to the same terminal. -/
theorem serve_get?_of_ne {other : Rnti} (distinct : other ≠ rnti) (binding : Binding) :
    (service.serve time ue cell rnti).bindings.get? other = some binding ↔
      service.bindings.get? other = some binding ∧ binding.ue ≠ ue := by
  rw [serve, Table.get?_insert_of_ne _ distinct, Table.get?_filter, Option.filter_eq_some_iff]
  simp [distinct]

@[simp]
theorem ueOf?_serve_self : (service.serve time ue cell rnti).ueOf? rnti = some ue := by
  rw [ueOf?, serve_get?_self]
  rfl

theorem ueOf?_serve_of_ne {link : Rnti} (distinct : link ≠ rnti) (other : UeId) :
    (service.serve time ue cell rnti).ueOf? link = some other ↔
      service.ueOf? link = some other ∧ other ≠ ue := by
  rw [ueOf?, ueOf?, Option.map_eq_some_iff, Option.map_eq_some_iff]
  simp only [serve_get?_of_ne _ _ _ _ _ distinct]
  constructor
  · rintro ⟨binding, ⟨held, distinct⟩, rfl⟩
    exact ⟨⟨binding, held, rfl⟩, distinct⟩
  · rintro ⟨⟨binding, held, rfl⟩, distinct⟩
    exact ⟨binding, ⟨held, distinct⟩, rfl⟩

/-- The store after the terminal that held a link before was forgotten. -/
def evict : Store :=
  match service.ueOf? rnti with
  | none => service.store
  | some holder => if holder = ue then service.store else service.store.remove holder

theorem serve_store :
    (service.serve time ue cell rnti).store =
      (service.evict ue rnti).change ue fun state => state.setServing cell time := by
  have kept : (service.bindings.filter fun link binding =>
      link == rnti || binding.ue != ue).get? rnti = service.bindings.get? rnti := by
    rw [Table.get?_filter]
    cases service.bindings.get? rnti <;> simp
  simp only [serve, kept, evict, ueOf?]
  cases service.bindings.get? rnti <;> rfl

theorem evict_historyLength :
    (service.evict ue rnti).historyLength = service.store.historyLength := by
  unfold evict
  split
  · rfl
  · split <;> rfl

/-- Nothing is forgotten of the terminal that the link is bound to. -/
theorem evict_state?_self :
    (service.evict ue rnti).state? ue = service.store.state? ue := by
  unfold evict
  split
  · rfl
  · next holder held =>
    by_cases same : holder = ue
    · rw [if_pos same]
    · rw [if_neg same, Store.state?_remove_of_ne _ (Ne.symm same)]

theorem evict_stateOf_self :
    (service.evict ue rnti).stateOf ue = service.store.stateOf ue := by
  rw [Store.stateOf, Store.stateOf, evict_state?_self, evict_historyLength]

theorem evict_of_held (held : service.ueOf? rnti = none ∨ service.ueOf? rnti = some ue) :
    service.evict ue rnti = service.store := by
  rcases held with free | held
  · rw [evict, free]
  · rw [evict, held]
    exact if_pos rfl

/-- Of all others, only the one that held the link is forgotten. -/
theorem serve_state?_of_ne {other : UeId} (distinct : other ≠ ue) :
    (service.serve time ue cell rnti).store.state? other =
      if service.ueOf? rnti = some other then none else service.store.state? other := by
  rw [serve_store, Store.change, Store.state?_put_of_ne _ distinct, evict]
  cases service.ueOf? rnti with
  | none => rfl
  | some holder =>
      by_cases same : holder = other
      · subst same
        simp [distinct]
      · have kept : some holder ≠ some other := fun equal => same (Option.some.inj equal)
        simp only [if_neg kept]
        split
        · rfl
        · exact Store.state?_remove_of_ne _ (Ne.symm same)

theorem serve_state?_self :
    (service.serve time ue cell rnti).store.state? ue =
      some ((service.store.stateOf ue).setServing cell time) := by
  rw [serve_store, Store.change, Store.state?_put_self, evict_stateOf_self]

/-- Binding a link keeps what holds of every state, if it holds of an empty one and
a change of the serving cell keeps it. -/
theorem serve_each {property : UeState → Prop} (each : service.store.Each property)
    (fresh : ∀ other, property (.fresh other service.store.historyLength))
    (kept : ∀ state, property state → property (state.setServing cell time)) :
    (service.serve time ue cell rnti).store.Each property := by
  have evicted : (service.evict ue rnti).Each property := by
    unfold evict
    split
    · exact each
    · next holder held =>
      split
      · exact each
      · exact each.remove (fresh holder)
  rw [serve_store, Store.change]
  exact evicted.put (kept _ (evicted ue))

end Serve

/-! ## Calls behind a link -/

theorem neighbour_of_bound (service : Service α) (time : Instant) {rnti : Rnti}
    {binding : Binding} (bound : service.bindings.get? rnti = some binding) (cell : CellId)
    (rsrp rsrq : Level) :
    (service.neighbour time rnti cell rsrp rsrq).1 =
      { service with store := service.store.update binding.ue cell rsrp rsrq time } := by
  rw [neighbour, bound]

theorem neighbour_of_unbound (service : Service α) (time : Instant) {rnti : Rnti}
    (unbound : service.bindings.get? rnti = none) (cell : CellId) (rsrp rsrq : Level) :
    (service.neighbour time rnti cell rsrp rsrq).1 = service := by
  rw [neighbour, unbound]

variable [Scalar α]

theorem evaluate_of_bound (service : Service α) (time : Instant) {rnti : Rnti}
    {binding : Binding} (bound : service.bindings.get? rnti = some binding) (rsrq : Level) :
    (service.evaluate time rnti rsrq).service =
      { service with
        store := service.store.put binding.ue
          (service.evaluator.selectTarget (service.store.stateOf binding.ue) time rsrq).state } := by
  rw [evaluate, bound]

/-- The answer names the chosen target, or the reserved cell. -/
theorem evaluate_answer_of_bound (service : Service α) (time : Instant) {rnti : Rnti}
    {binding : Binding} (bound : service.bindings.get? rnti = some binding) (rsrq : Level) :
    (service.evaluate time rnti rsrq).answer =
      some (((service.evaluator.selectTarget (service.store.stateOf binding.ue) time
        rsrq).choice.map Prod.fst).getD .none) := by
  rw [evaluate, bound]
  simp only
  split
  · next chosen => rw [chosen, Option.map_some, Option.getD_some]
  · next chosen => rw [chosen, Option.map_none, Option.getD_none]

theorem evaluate_of_unbound (service : Service α) (time : Instant) {rnti : Rnti}
    (unbound : service.bindings.get? rnti = none) (rsrq : Level) :
    (service.evaluate time rnti rsrq).service = service := by
  rw [evaluate, unbound]

/-! ## Runs -/

/-- The service after calls in order. -/
def run (service : Service α) (calls : List ServiceCall) : Service α :=
  calls.foldl (fun current call => (current.handle call).service) service

@[simp]
theorem run_nil (service : Service α) : service.run [] = service :=
  rfl

@[simp]
theorem run_cons (service : Service α) (call : ServiceCall) (rest : List ServiceCall) :
    service.run (call :: rest) = (service.handle call).service.run rest :=
  rfl

theorem run_append (service : Service α) (first second : List ServiceCall) :
    service.run (first ++ second) = (service.run first).run second :=
  List.foldl_append

end Handover.Service
