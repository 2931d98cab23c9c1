import Handover.Proofs.Inference.Selection
import Handover.Proofs.Service.Binding
import Mathlib.Data.List.Nodup

/-!
# Links and terminals of the service

The service keeps two tables, the links and what is known of the terminals.
They stay in step: every terminal that is known has exactly one link, and the
link tells its serving cell.
-/

namespace Handover

/-- The link of a call that is about the terminal behind it. -/
def ServiceCall.link? : ServiceCall → Option Rnti
  | serve _ _ _ _ => none
  | neighbour _ rnti _ _ _ => some rnti
  | evaluate _ rnti _ _ => some rnti

namespace Service

variable {α : Type}

/-! ## What a call does -/

section Effects

variable [Scalar α]

/-- What a call behind a link makes of the state of its terminal. -/
inductive Written (evaluator : Inference.Evaluator α) (state : UeState) : UeState → Prop where
  | neighbour (cell : CellId) (rsrp rsrq : Level) (time : Instant) :
      Written evaluator state (state.updateNeighbour cell rsrp rsrq time)
  | evaluation (time : Instant) (rsrq : Level) :
      Written evaluator state (evaluator.selectTarget state time rsrq).state

/-- What a call makes of a service. -/
inductive Effect (service : Service α) : ServiceCall → Service α → Prop where
  | serve (time : Instant) (ue : UeId) (cell : CellId) (rnti : Rnti) :
      Effect service (.serve time ue cell rnti) (service.serve time ue cell rnti)
  | ignored {call : ServiceCall} {rnti : Rnti} (behind : call.link? = some rnti)
      (unbound : service.bindings.get? rnti = none) : Effect service call service
  | wrote {call : ServiceCall} {rnti : Rnti} {binding : Binding} {state : UeState}
      (behind : call.link? = some rnti) (held : service.bindings.get? rnti = some binding)
      (written : Written service.evaluator (service.store.stateOf binding.ue) state) :
      Effect service call { service with store := service.store.put binding.ue state }

theorem handle_effect (service : Service α) (call : ServiceCall) :
    service.Effect call (service.handle call).service := by
  cases call with
  | serve time ue cell rnti => exact .serve time ue cell rnti
  | neighbour time rnti cell rsrp rsrq =>
      change service.Effect _ (service.neighbour time rnti cell rsrp rsrq).1
      cases held : service.bindings.get? rnti with
      | none =>
          rw [neighbour_of_unbound service time held]
          exact .ignored rfl held
      | some binding =>
          rw [neighbour_of_bound service time held]
          exact .wrote rfl held (.neighbour cell rsrp rsrq time)
  | evaluate time rnti rsrp rsrq =>
      change service.Effect _ (service.evaluate time rnti rsrq).service
      cases held : service.bindings.get? rnti with
      | none =>
          rw [evaluate_of_unbound service time held]
          exact .ignored rfl held
      | some binding =>
          rw [evaluate_of_bound service time held]
          exact .wrote rfl held (.evaluation time rsrq)

end Effects

/-! ## Links and terminals -/

/-- The links and what is known of the terminals agree. -/
structure Coherent (service : Service α) : Prop where
  /-- No terminal has two links. -/
  injective : ∀ first second holder other, service.bindings.get? first = some holder →
    service.bindings.get? second = some other → holder.ue = other.ue → first = second
  /-- Only terminals with a link are known. -/
  bound : ∀ ue state, service.store.state? ue = some state →
    ∃ rnti binding, service.bindings.get? rnti = some binding ∧ binding.ue = ue
  /-- A terminal with a link is known, with the serving cell of the link and
  without an outstanding handover. -/
  serving : ∀ rnti binding, service.bindings.get? rnti = some binding →
    ∃ state, service.store.state? binding.ue = some state ∧
      state.servingCell = some binding.servingCell ∧
      state.servingSince = some binding.since ∧ state.outstanding = false

namespace Coherent

variable {service : Service α}

theorem known_iff (coherent : service.Coherent) (ue : UeId) :
    (service.store.state? ue).isSome ↔
      ∃ rnti binding, service.bindings.get? rnti = some binding ∧ binding.ue = ue := by
  rw [Option.isSome_iff_exists]
  constructor
  · rintro ⟨state, known⟩
    exact coherent.bound ue state known
  · rintro ⟨rnti, binding, held, rfl⟩
    rcases coherent.serving rnti binding held with ⟨state, known, _⟩
    exact ⟨state, known⟩

/-- The service marks no terminal. -/
theorem settled (coherent : service.Coherent) (ue : UeId) :
    (service.store.stateOf ue).outstanding = false := by
  cases known : service.store.state? ue with
  | none =>
      rw [Store.stateOf_of_unknown known]
      rfl
  | some state =>
      rcases coherent.bound ue state known with ⟨rnti, binding, held, rfl⟩
      rcases coherent.serving rnti binding held with ⟨found, same, _, _, settled⟩
      rw [Store.stateOf_of_state? same]
      exact settled

/-- There are as many known terminals as links. -/
theorem size_eq (coherent : service.Coherent) :
    service.store.size = service.bindings.size := by
  have distinct : (service.bindings.entries.map fun entry => entry.2.ue).Nodup := by
    have entries : service.bindings.entries.Nodup := service.bindings.nodup_keys.of_map _
    refine entries.map_on ?_
    rintro ⟨first, holder⟩ firstMember ⟨second, other⟩ secondMember same
    rw [Table.mem_entries_iff] at firstMember secondMember
    have links := coherent.injective first second holder other firstMember secondMember same
    subst links
    rw [firstMember] at secondMember
    cases secondMember
    rfl
  have same : service.store.ues.keys.Perm
      (service.bindings.entries.map fun entry => entry.2.ue) := by
    rw [List.perm_ext_iff_of_nodup service.store.ues.nodup_keys distinct]
    intro ue
    rw [Table.mem_keys_iff, List.mem_map]
    constructor
    · intro known
      rcases (coherent.known_iff ue).mp known with ⟨rnti, binding, held, about⟩
      exact ⟨(rnti, binding), Table.mem_entries_iff.mpr held, about⟩
    · rintro ⟨⟨rnti, binding⟩, member, about⟩
      exact (coherent.known_iff ue).mpr ⟨rnti, binding, Table.mem_entries_iff.mp member, about⟩
  rw [Store.size, ← Table.length_keys, same.length_eq, List.length_map]
  rfl

/-! ## Calls -/

theorem serve (coherent : service.Coherent) (time : Instant) (ue : UeId) (cell : CellId)
    (rnti : Rnti) : (service.serve time ue cell rnti).Coherent where
  injective := by
    intro first second holder other firstHeld secondHeld same
    by_cases firstNew : first = rnti
    · by_cases secondNew : second = rnti
      · rw [firstNew, secondNew]
      · rw [firstNew, serve_get?_self] at firstHeld
        rw [serve_get?_of_ne _ _ _ _ _ secondNew] at secondHeld
        cases firstHeld
        exact absurd same.symm secondHeld.2
    · rw [serve_get?_of_ne _ _ _ _ _ firstNew] at firstHeld
      by_cases secondNew : second = rnti
      · rw [secondNew, serve_get?_self] at secondHeld
        cases secondHeld
        exact absurd same firstHeld.2
      · rw [serve_get?_of_ne _ _ _ _ _ secondNew] at secondHeld
        exact coherent.injective first second holder other firstHeld.1 secondHeld.1 same
  bound := by
    intro other state known
    by_cases self : other = ue
    · subst self
      exact ⟨rnti, ⟨other, cell, time⟩, serve_get?_self _ _ _ _ _, rfl⟩
    · rw [serve_state?_of_ne _ _ _ _ _ self] at known
      split at known
      · cases known
      · next kept =>
        rcases coherent.bound other state known with ⟨link, binding, held, rfl⟩
        have otherLink : link ≠ rnti := by
          rintro rfl
          exact kept (by rw [ueOf?, held]; rfl)
        exact ⟨link, binding, (serve_get?_of_ne _ _ _ _ _ otherLink _).mpr ⟨held, self⟩, rfl⟩
  serving := by
    intro link binding held
    by_cases new : link = rnti
    · rw [new, serve_get?_self] at held
      cases held
      exact ⟨_, serve_state?_self _ _ _ _ _, rfl, rfl, coherent.settled ue⟩
    · rw [serve_get?_of_ne _ _ _ _ _ new] at held
      have kept : service.ueOf? rnti ≠ some binding.ue := by
        intro taken
        rcases Option.map_eq_some_iff.mp taken with ⟨other, otherHeld, same⟩
        exact new (coherent.injective link rnti binding other held.1 otherHeld same.symm)
      rw [serve_state?_of_ne _ _ _ _ _ held.2, if_neg kept]
      exact coherent.serving link binding held.1

/-- A state that agrees on the serving cell and on the mark may replace that of
a terminal with a link. -/
theorem put (coherent : service.Coherent) {rnti : Rnti} {binding : Binding}
    (held : service.bindings.get? rnti = some binding) {state : UeState}
    (cell : state.servingCell = (service.store.stateOf binding.ue).servingCell)
    (since : state.servingSince = (service.store.stateOf binding.ue).servingSince)
    (settled : state.outstanding = (service.store.stateOf binding.ue).outstanding) :
    Coherent { service with store := service.store.put binding.ue state } where
  injective := coherent.injective
  bound := by
    intro ue found known
    by_cases self : ue = binding.ue
    · exact ⟨rnti, binding, held, self.symm⟩
    · rw [Store.state?_put_of_ne _ self] at known
      exact coherent.bound ue found known
  serving := by
    intro link other otherHeld
    by_cases self : other.ue = binding.ue
    · rcases coherent.serving link other otherHeld with ⟨before, known, agrees⟩
      rw [self] at known ⊢
      rw [Store.stateOf_of_state? known] at cell since settled
      refine ⟨state, Store.state?_put_self _ _ _, ?_⟩
      rw [cell, since, settled]
      exact agrees
    · rw [Store.state?_put_of_ne _ self]
      exact coherent.serving link other otherHeld

variable [Scalar α]

theorem handle (coherent : service.Coherent) (call : ServiceCall) :
    (service.handle call).service.Coherent := by
  have effect := service.handle_effect call
  generalize (service.handle call).service = after at effect ⊢
  cases effect with
  | serve time ue cell rnti => exact coherent.serve time ue cell rnti
  | ignored behind unbound => exact coherent
  | wrote behind held written =>
      cases written with
      | neighbour cell rsrp rsrq time => exact coherent.put held rfl rfl rfl
      | evaluation time rsrq =>
          exact coherent.put held (Inference.Evaluator.selectTarget_servingCell _ _ _ _)
            (Inference.Evaluator.selectTarget_servingSince _ _ _ _)
            (Inference.Evaluator.selectTarget_outstanding _ _ _ _)

theorem run (coherent : service.Coherent) (calls : List ServiceCall) :
    (service.run calls).Coherent := by
  induction calls generalizing service with
  | nil => exact coherent
  | cons call rest ih => exact ih (coherent.handle call)

end Coherent

theorem coherent_ofEvaluator (evaluator : Inference.Evaluator α) (historyLength : Nat) :
    (ofEvaluator evaluator historyLength).Coherent where
  injective := nofun
  bound := nofun
  serving := nofun

variable [Scalar α]

/-- A call behind a link that is not bound changes nothing. -/
theorem handle_of_unbound (service : Service α) {call : ServiceCall} {rnti : Rnti}
    (behind : call.link? = some rnti) (unbound : service.bindings.get? rnti = none) :
    (service.handle call).service = service := by
  cases call with
  | serve time ue cell link => cases behind
  | neighbour time link cell rsrp rsrq =>
      cases behind
      exact neighbour_of_unbound service time unbound cell rsrp rsrq
  | evaluate time link rsrp rsrq =>
      cases behind
      exact evaluate_of_unbound service time unbound rsrq

/-- Whatever is asked of a service that knew nothing, its links and its terminals
agree: the terminals with a link are the known ones, so there are no more of them
than links, and nothing happens behind a link that is not bound. -/
theorem links_match_terminals (evaluator : Inference.Evaluator α) (historyLength : Nat)
    (calls : List ServiceCall) :
    let service := (ofEvaluator evaluator historyLength).run calls
    service.Coherent ∧
      (∀ ue, (service.store.state? ue).isSome ↔
        ∃ rnti binding, service.bindings.get? rnti = some binding ∧ binding.ue = ue) ∧
      service.store.size = service.bindings.size ∧
      ∀ call rnti, call.link? = some rnti → service.bindings.get? rnti = none →
        (service.handle call).service = service := by
  have coherent := (coherent_ofEvaluator evaluator historyLength).run calls
  refine ⟨coherent, coherent.known_iff, coherent.size_eq, ?_⟩
  intro call rnti behind unbound
  exact handle_of_unbound _ behind unbound

end Service

end Handover
