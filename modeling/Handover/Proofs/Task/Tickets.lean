import Handover.Proofs.Task.Shared

/-!
# Tickets of a shared task

Every message in the queue belongs to the call whose ticket it carries, and no
ticket is sent twice.  A call that has no result yet holds its handle, so the
task cannot run out of handles under it.
-/

namespace Handover

open TaskMessage

/-- The ticket is that of a sent message. -/
def TaskMessage.Carried (ticket : Nat) (messages : List TaskMessage) : Prop :=
  ticket ∈ messages.filterMap ticket?

theorem TaskMessage.carried_append {ticket : Nat} {messages later : List TaskMessage} :
    Carried ticket (messages ++ later) ↔ Carried ticket messages ∨ Carried ticket later := by
  rw [Carried, List.filterMap_append, List.mem_append]
  rfl

/-- A call is carried under its own ticket only, and only if it is an
evaluation. -/
theorem TaskCall.carried_message {ticket other : Nat} {call : TaskCall} :
    Carried other [call.message ticket] ↔ other = ticket ∧ call.isEvaluation = true := by
  cases call with
  | shutdown => simp [Carried, message, ticket?, isEvaluation]
  | request call =>
      cases evaluation : call.isEvaluation <;>
        simp [Carried, message, ticket?, isEvaluation, evaluation]

/-- A ticket has one position. -/
theorem TaskMessage.position_unique {requests : List Request}
    (distinct : (requests.filterMap Prod.snd).Nodup) {first second ticket : Nat}
    {call other : ServiceCall} (here : requests[first]? = some (call, some ticket))
    (there : requests[second]? = some (other, some ticket)) : first = second := by
  rw [List.Nodup, List.pairwise_filterMap, List.pairwise_iff_getElem] at distinct
  obtain ⟨inside, here⟩ := List.getElem?_eq_some_iff.mp here
  obtain ⟨within, there⟩ := List.getElem?_eq_some_iff.mp there
  rcases Nat.lt_trichotomy first second with before | same | behind
  · exact absurd rfl (distinct first second inside within before ticket (by rw [here]) ticket
      (by rw [there]))
  · exact same
  · exact absurd rfl (distinct second first within inside behind ticket (by rw [there]) ticket
      (by rw [here]))

namespace SharedTask

variable {σ ω : Type} {shared : SharedTask σ ω} {ticket : Nat} {errand : Errand}

/-- Where the calls of a shared task stand. -/
structure Ticketed (shared : SharedTask σ ω) : Prop where
  nodup : (shared.sent.filterMap ticket?).Nodup
  matched : ∀ message ∈ shared.sent, ∃ (ticket : Nat) (errand : Errand),
    shared.errands[ticket]? = some errand ∧ message = errand.call.message ticket
  unsent : ∀ (ticket : Nat) (errand : Errand), shared.errands[ticket]? = some errand →
    errand.phase = .sending → ¬Carried ticket shared.sent
  awaited : ∀ (ticket : Nat) (errand : Errand), shared.errands[ticket]? = some errand →
    errand.phase = .waiting → errand.call.isEvaluation = true ∧ Carried ticket shared.sent
  held : ∀ errand ∈ shared.errands, errand.handle ∈ shared.handles ∨ errand.Ended

theorem ticketed_spawn (service : σ) (capacity : Nat) :
    (spawn service capacity : SharedTask σ ω).Ticketed where
  nodup := List.nodup_nil
  matched := nofun
  unsent := nofun
  awaited := nofun
  held := nofun

/-! ## Calls by ticket -/

theorem advance_getElem? (begun : shared.errands[ticket]? = some errand) (phase : CallPhase)
    (other : Nat) :
    (shared.advance ticket errand phase).errands[other]? =
      if ticket = other then some { errand with phase := phase } else shared.errands[other]? := by
  have inside : ticket < shared.errands.length := (List.getElem?_eq_some_iff.mp begun).1
  simp [advance, List.getElem?_set, inside]

/-- Every call is still there. -/
theorem advance_call (begun : shared.errands[ticket]? = some errand) (phase : CallPhase)
    {other : Nat} {found : Errand} (known : shared.errands[other]? = some found) :
    ∃ later, (shared.advance ticket errand phase).errands[other]? = some later ∧
      later.call = found.call := by
  rw [advance_getElem? begun]
  split
  · next same =>
    subst same
    cases begun.symm.trans known
    exact ⟨_, rfl, rfl⟩
  · exact ⟨found, known, rfl⟩

/-- A call is the changed one, or it was there before. -/
theorem advance_cases (begun : shared.errands[ticket]? = some errand) {phase : CallPhase}
    {other : Nat} {found : Errand}
    (known : (shared.advance ticket errand phase).errands[other]? = some found) :
    (other = ticket ∧ found = { errand with phase := phase }) ∨
      (other ≠ ticket ∧ shared.errands[other]? = some found) := by
  rw [advance_getElem? begun] at known
  split at known
  · next same =>
    cases known
    exact .inl ⟨same.symm, rfl⟩
  · next distinct => exact .inr ⟨Ne.symm distinct, known⟩

/-- What a longer list holds was there before, or it has just been added. -/
theorem concat_cases {β : Type} {entries : List β} {added found : β} {position : Nat}
    (known : (entries ++ [added])[position]? = some found) :
    entries[position]? = some found ∨ (position = entries.length ∧ found = added) := by
  rcases Nat.lt_trichotomy position entries.length with inside | here | beyond
  · rw [List.getElem?_append_left inside] at known
    exact .inl known
  · subst here
    rw [List.getElem?_concat_length] at known
    cases known
    exact .inr ⟨rfl, rfl⟩
  · have outside : (entries ++ [added]).length ≤ position := by
      rw [List.length_append]
      exact beyond
    rw [List.getElem?_eq_none outside] at known
    cases known

theorem sentPhase_cases (call : TaskCall) :
    (call.isEvaluation = true ∧ call.sentPhase = .waiting) ∨
      (call.isEvaluation = false ∧ call.sentPhase = .ended (.ok none)) := by
  cases evaluation : call.isEvaluation <;> simp [TaskCall.sentPhase, evaluation]

namespace Ticketed

/-- A sent ticket is the ticket of a call. -/
theorem lt_length (ticketed : shared.Ticketed) (carried : Carried ticket shared.sent) :
    ticket < shared.errands.length := by
  obtain ⟨message, member, carries⟩ := List.mem_filterMap.mp carried
  obtain ⟨owner, found, known, rfl⟩ := ticketed.matched message member
  have own : Carried ticket [found.call.message owner] :=
    List.mem_filterMap.mpr ⟨_, List.mem_singleton_self _, carries⟩
  rw [(TaskCall.carried_message.mp own).1]
  exact (List.getElem?_eq_some_iff.mp known).1

/-- An accepted request has a ticket if it is an evaluation, and the ticket is that
of its call. -/
theorem of_accepted (ticketed : shared.Ticketed) {call : ServiceCall} {carried : Option Nat}
    (member : (call, carried) ∈ accepted shared.sent) :
    carried.isSome = call.isEvaluation ∧ ∀ ticket, carried = some ticket →
      ∃ errand, shared.errands[ticket]? = some errand ∧ errand.call = .request call := by
  obtain ⟨owner, found, known, same⟩ := ticketed.matched _ (mem_of_mem_accepted member)
  cases asked : found.call with
  | shutdown =>
      rw [asked] at same
      cases same
  | request asks =>
      rw [asked] at same
      obtain ⟨rfl, carries⟩ := TaskMessage.request.inj same
      change carried = if call.isEvaluation = true then some owner else none at carries
      subst carries
      constructor
      · cases call.isEvaluation <;> rfl
      · intro ticket carries
        split at carries
        · cases carries
          exact ⟨found, known, asked⟩
        · cases carries

/-- A ticket is accepted at one position. -/
theorem position_unique (ticketed : shared.Ticketed) {first second : Nat}
    {call other : ServiceCall}
    (here : (accepted shared.sent)[first]? = some (call, some ticket))
    (there : (accepted shared.sent)[second]? = some (other, some ticket)) : first = second :=
  TaskMessage.position_unique (ticketed.nodup.sublist (tickets_accepted_sublist shared.sent))
    here there

/-! ## What a step keeps -/

theorem begin (ticketed : shared.Ticketed) {handle : Nat} (held : handle ∈ shared.handles)
    (call : TaskCall) :
    Ticketed { shared with errands := shared.errands ++ [⟨handle, call, .sending⟩] } where
  nodup := ticketed.nodup
  matched := by
    intro message member
    obtain ⟨owner, found, known, same⟩ := ticketed.matched message member
    have inside := (List.getElem?_eq_some_iff.mp known).1
    exact ⟨owner, found, by rw [List.getElem?_append_left inside, known], same⟩
  unsent := by
    intro other found known sending carried
    have inside := ticketed.lt_length carried
    rw [List.getElem?_append_left inside] at known
    exact ticketed.unsent other found known sending carried
  awaited := by
    intro other found known waits
    rcases concat_cases known with before | ⟨_, rfl⟩
    · exact ticketed.awaited other found before waits
    · cases waits
  held := by
    intro found member
    rcases List.mem_append.mp member with before | added
    · exact ticketed.held found before
    · cases List.mem_singleton.mp added
      exact .inl held

/-- A call gets its result. -/
theorem ended (ticketed : shared.Ticketed) (begun : shared.errands[ticket]? = some errand)
    (result : Except TaskError (Option CellId)) :
    (shared.advance ticket errand (.ended result)).Ticketed where
  nodup := ticketed.nodup
  matched := by
    intro message member
    obtain ⟨owner, found, known, rfl⟩ := ticketed.matched message member
    obtain ⟨later, there, same⟩ := advance_call begun (.ended result) known
    exact ⟨owner, later, there, by rw [same]⟩
  unsent := by
    intro other found known sending
    rcases advance_cases begun known with ⟨_, rfl⟩ | ⟨_, before⟩
    · cases sending
    · exact ticketed.unsent other found before sending
  awaited := by
    intro other found known waits
    rcases advance_cases begun known with ⟨_, rfl⟩ | ⟨_, before⟩
    · cases waits
    · exact ticketed.awaited other found before waits
  held := by
    intro found member
    obtain ⟨other, known⟩ := List.mem_iff_getElem?.mp member
    rcases advance_cases begun known with ⟨_, rfl⟩ | ⟨_, before⟩
    · exact .inr ⟨result, rfl⟩
    · exact ticketed.held found (List.mem_of_getElem? before)

/-- The message of a call comes into the queue. -/
theorem send (ticketed : shared.Ticketed) (begun : shared.errands[ticket]? = some errand)
    (sending : errand.phase = .sending) (task : Task σ ω) :
    Ticketed
      { shared.advance ticket errand errand.call.sentPhase with
        task := task
        sent := shared.sent ++ [errand.call.message ticket] } where
  nodup := by
    rw [List.filterMap_append, List.nodup_append]
    refine ⟨ticketed.nodup, ?_, ?_⟩
    · cases errand.call.message ticket with
      | shutdown => exact List.nodup_nil
      | request call carried =>
          cases carried with
          | none => exact List.nodup_nil
          | some other => exact List.pairwise_singleton _ other
    · intro other before added here same
      subst same
      obtain ⟨rfl, _⟩ := TaskCall.carried_message.mp here
      exact ticketed.unsent _ errand begun sending before
  matched := by
    intro message member
    rcases List.mem_append.mp member with before | added
    · obtain ⟨owner, found, known, rfl⟩ := ticketed.matched message before
      obtain ⟨later, there, same⟩ := advance_call begun errand.call.sentPhase known
      exact ⟨owner, later, there, by rw [same]⟩
    · obtain ⟨later, there, same⟩ := advance_call begun errand.call.sentPhase begun
      exact ⟨ticket, later, there, by rw [same, List.mem_singleton.mp added]⟩
  unsent := by
    intro other found known unsent carried
    rcases advance_cases begun known with ⟨_, rfl⟩ | ⟨distinct, before⟩
    · rcases sentPhase_cases errand.call with ⟨_, phase⟩ | ⟨_, phase⟩ <;>
        cases phase.symm.trans unsent
    · rcases carried_append.mp carried with earlier | added
      · exact ticketed.unsent other found before unsent earlier
      · exact distinct (TaskCall.carried_message.mp added).1
  awaited := by
    intro other found known waits
    rcases advance_cases begun known with ⟨rfl, rfl⟩ | ⟨_, before⟩
    · rcases sentPhase_cases errand.call with ⟨evaluation, _⟩ | ⟨_, phase⟩
      · exact ⟨evaluation, carried_append.mpr (.inr (TaskCall.carried_message.mpr ⟨rfl, evaluation⟩))⟩
      · cases phase.symm.trans waits
    · obtain ⟨evaluation, carried⟩ := ticketed.awaited other found before waits
      exact ⟨evaluation, carried_append.mpr (.inl carried)⟩
  held := by
    intro found member
    obtain ⟨other, known⟩ := List.mem_iff_getElem?.mp member
    rcases advance_cases begun known with ⟨_, rfl⟩ | ⟨_, before⟩
    · rcases ticketed.held errand (List.mem_of_getElem? begun) with stays | ⟨result, ended⟩
      · exact .inl stays
      · cases sending.symm.trans ended
    · exact ticketed.held found (List.mem_of_getElem? before)

theorem step [InferenceService σ ω] (ticketed : shared.Ticketed) {event : Event}
    {next : SharedTask σ ω} (step : shared.Step event next) : next.Ticketed := by
  cases step with
  | clone held =>
      exact
        { ticketed with
          held := fun errand member => (ticketed.held errand member).imp_left (List.mem_cons_of_mem _) }
  | @drop handle held idle =>
      refine { ticketed with held := ?_ }
      intro errand member
      rcases ticketed.held errand member with stays | ended
      · by_cases same : errand.handle = handle
        · exact .inr (idle errand member same)
        · exact .inl (by simpa [same] using stays)
      · exact .inr ended
  | begin held call => exact ticketed.begin held call
  | send begun sending _ _ => exact ticketed.send begun sending _
  | refuse begun _ _ => exact ticketed.ended begun _
  | receive begun _ _ => exact ticketed.ended begun _
  | miss begun _ _ _ => exact ticketed.ended begun _
  | serve _ _ | leave _ _ | desert _ _ _ | close _ _ =>
      exact
        { nodup := ticketed.nodup
          matched := ticketed.matched
          unsent := ticketed.unsent
          awaited := ticketed.awaited
          held := ticketed.held }

end Ticketed

end SharedTask

end Handover
