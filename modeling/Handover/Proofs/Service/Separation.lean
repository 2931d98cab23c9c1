import Handover.Proofs.Service.Coherence
import Handover.Proofs.Strategy.Confined
import Mathlib.Data.List.Induction

/-!
# Histories of terminals stay apart

Radio links are given from one terminal to another.  What the service knows of a
terminal and what it answers to it follow from the calls addressed to that
terminal since its link was last taken over, as if there were no other terminal.
Which calls are addressed to it depends on the links at the time of each call.
-/

namespace Handover.Service

variable {α : Type}

/-! ## Calls and their addressees -/

/-- The terminal that a call is addressed to, if there is one. -/
def addressee? (service : Service α) : ServiceCall → Option UeId
  | .serve _ ue _ _ => some ue
  | .neighbour _ rnti _ _ _ => service.ueOf? rnti
  | .evaluate _ rnti _ _ => service.ueOf? rnti

/-- The call gives the link of a terminal to another one. -/
def TakesOver (service : Service α) (ue : UeId) : ServiceCall → Prop
  | .serve _ other _ rnti => other ≠ ue ∧ service.ueOf? rnti = some ue
  | .neighbour _ _ _ _ _ => False
  | .evaluate _ _ _ _ => False

instance (service : Service α) (ue : UeId) (call : ServiceCall) :
    Decidable (service.TakesOver ue call) :=
  match call with
  | .serve _ _ _ _ => inferInstanceAs (Decidable (_ ∧ _))
  | .neighbour _ _ _ _ _ => inferInstanceAs (Decidable False)
  | .evaluate _ _ _ _ => inferInstanceAs (Decidable False)

/-- Two services run the same evaluator, know the same of a terminal and give it
the same link. -/
structure Alike (ue : UeId) (first second : Service α) : Prop where
  evaluator : first.evaluator = second.evaluator
  store : Store.Alike ue first.store second.store
  links : ∀ rnti, first.ueOf? rnti = some ue ↔ second.ueOf? rnti = some ue

/-- The service knows nothing of a terminal, and no link is bound to it. -/
structure Unknown (service : Service α) (ue : UeId) : Prop where
  links : ∀ rnti, service.ueOf? rnti ≠ some ue
  state : service.store.state? ue = none

theorem Unknown.alike {ue : UeId} {first second : Service α} (unknown : first.Unknown ue)
    (other : second.Unknown ue) (evaluator : first.evaluator = second.evaluator)
    (historyLength : first.store.historyLength = second.store.historyLength) :
    Alike ue first second where
  evaluator := evaluator
  store := ⟨historyLength, unknown.state.trans other.state.symm⟩
  links rnti := iff_of_false (unknown.links rnti) (other.links rnti)

theorem exists_binding {service : Service α} {rnti : Rnti} {ue : UeId}
    (bound : service.ueOf? rnti = some ue) :
    ∃ binding, service.bindings.get? rnti = some binding ∧ binding.ue = ue :=
  Option.map_eq_some_iff.mp bound

/-! ## Serving -/

theorem serve_historyLength (service : Service α) (time : Instant) (ue : UeId) (cell : CellId)
    (rnti : Rnti) :
    (service.serve time ue cell rnti).store.historyLength = service.store.historyLength := by
  rw [serve_store]
  exact service.evict_historyLength ue rnti

/-- A terminal that is served again is served alike. -/
theorem Alike.serve {ue : UeId} {first second : Service α} (alike : Alike ue first second)
    (time : Instant) (cell : CellId) (rnti : Rnti) :
    Alike ue (first.serve time ue cell rnti) (second.serve time ue cell rnti) where
  evaluator := alike.evaluator
  store :=
    { historyLength := by
        rw [serve_historyLength, serve_historyLength, alike.store.historyLength]
      state? := by
        rw [serve_state?_self, serve_state?_self, alike.store.stateOf] }
  links link := by
    by_cases new : link = rnti
    · rw [new, ueOf?_serve_self, ueOf?_serve_self]
    · rw [ueOf?_serve_of_ne _ _ _ _ _ new, ueOf?_serve_of_ne _ _ _ _ _ new, alike.links]

/-- Serving another terminal over a link that is not taken from this one changes
nothing for it. -/
theorem alike_serve (service : Service α) {ue other : UeId} (distinct : other ≠ ue)
    (time : Instant) (cell : CellId) {rnti : Rnti} (free : service.ueOf? rnti ≠ some ue) :
    Alike ue (service.serve time other cell rnti) service where
  evaluator := rfl
  store :=
    { historyLength := service.serve_historyLength time other cell rnti
      state? := by rw [serve_state?_of_ne _ _ _ _ _ distinct.symm, if_neg free] }
  links link := by
    by_cases new : link = rnti
    · rw [new, ueOf?_serve_self]
      exact iff_of_false (fun same => distinct (Option.some.inj same)) free
    · rw [ueOf?_serve_of_ne _ _ _ _ _ new]
      exact and_iff_left distinct.symm

/-- A terminal whose link was taken over is forgotten. -/
theorem Coherent.unknown_of_serve {service : Service α} (coherent : service.Coherent)
    {ue other : UeId} (distinct : other ≠ ue) (time : Instant) (cell : CellId) {rnti : Rnti}
    (held : service.ueOf? rnti = some ue) : (service.serve time other cell rnti).Unknown ue where
  links link bound := by
    by_cases new : link = rnti
    · rw [new, ueOf?_serve_self] at bound
      exact distinct (Option.some.inj bound)
    · rw [ueOf?_serve_of_ne _ _ _ _ _ new] at bound
      rcases exists_binding held with ⟨binding, found, about⟩
      rcases exists_binding bound.1 with ⟨older, olderFound, olderAbout⟩
      -- A terminal has one link, and that is the one taken over.
      exact new (coherent.injective link rnti older binding olderFound found
        (olderAbout.trans about.symm))
  state := by rw [serve_state?_of_ne _ _ _ _ _ distinct.symm, if_pos held]

/-! ## Single calls -/

theorem Alike.trans {ue : UeId} {first second third : Service α} (left : Alike ue first second)
    (right : Alike ue second third) : Alike ue first third where
  evaluator := left.evaluator.trans right.evaluator
  store := left.store.trans right.store
  links rnti := (left.links rnti).trans (right.links rnti)

/-- Only the stores have to be compared after calls that leave the links alone. -/
theorem Alike.withStore {ue : UeId} {first second : Service α} (alike : Alike ue first second)
    {firstStore secondStore : Store} (stores : Store.Alike ue firstStore secondStore) :
    Alike ue { first with store := firstStore } { second with store := secondStore } :=
  ⟨alike.evaluator, stores, alike.links⟩

theorem alike_of_differOnly (service : Service α) {ue other : UeId} (distinct : other ≠ ue)
    {store : Store} (change : Store.DifferOnly other service.store store) :
    Alike ue { service with store := store } service :=
  ⟨rfl, (change.alike distinct.symm).symm, fun _ => Iff.rfl⟩

variable [Scalar α]

/-- A call addressed to a terminal finds and leaves the same behind in services
that are alike for it. -/
theorem Alike.handle {ue : UeId} {first second : Service α} (alike : Alike ue first second)
    {call : ServiceCall} (addressed : first.addressee? call = some ue) :
    Alike ue (first.handle call).service (second.handle call).service ∧
      (first.handle call).answer = (second.handle call).answer := by
  cases call with
  | serve time other cell rnti =>
      cases addressed
      exact ⟨alike.serve time cell rnti, rfl⟩
  | neighbour time rnti cell rsrp rsrq =>
      rcases exists_binding addressed with ⟨binding, bound, rfl⟩
      rcases exists_binding ((alike.links rnti).mp addressed) with ⟨other, otherBound, same⟩
      change Alike _ (first.neighbour time rnti cell rsrp rsrq).1
        (second.neighbour time rnti cell rsrp rsrq).1 ∧ none = none
      rw [neighbour_of_bound _ _ bound, neighbour_of_bound _ _ otherBound, same]
      exact ⟨alike.withStore (alike.store.update cell rsrp rsrq time), rfl⟩
  | evaluate time rnti rsrp rsrq =>
      rcases exists_binding addressed with ⟨binding, bound, rfl⟩
      rcases exists_binding ((alike.links rnti).mp addressed) with ⟨other, otherBound, same⟩
      change Alike _ (first.evaluate time rnti rsrq).service
        (second.evaluate time rnti rsrq).service ∧
          (first.evaluate time rnti rsrq).answer = (second.evaluate time rnti rsrq).answer
      have selection : first.evaluator.selectTarget (first.store.stateOf binding.ue) time rsrq =
          second.evaluator.selectTarget (second.store.stateOf binding.ue) time rsrq := by
        rw [alike.evaluator, alike.store.stateOf]
      rw [evaluate_of_bound _ _ bound, evaluate_of_bound _ _ otherBound,
        evaluate_answer_of_bound _ _ bound, evaluate_answer_of_bound _ _ otherBound, same,
        selection]
      exact ⟨alike.withStore (alike.store.put _), rfl⟩

omit [Scalar α] in
theorem addressee?_of_link {service : Service α} {call : ServiceCall} {rnti : Rnti}
    (behind : call.link? = some rnti) : service.addressee? call = service.ueOf? rnti := by
  cases call with
  | serve time ue cell link => cases behind
  | neighbour time link cell rsrp rsrq | evaluate time link rsrp rsrq =>
      cases behind
      rfl

/-- A call addressed to no terminal or to another one that does not take a link
over changes nothing for a terminal. -/
theorem alike_handle (service : Service α) {ue : UeId} {call : ServiceCall}
    (other : service.addressee? call ≠ some ue) (kept : ¬service.TakesOver ue call) :
    Alike ue (service.handle call).service service := by
  have effect := service.handle_effect call
  generalize (service.handle call).service = after at effect ⊢
  cases effect with
  | serve time served cell rnti =>
      have distinct : served ≠ ue := fun equal => other (congrArg some equal)
      exact service.alike_serve distinct time cell fun held => kept ⟨distinct, held⟩
  | ignored behind unbound => exact ⟨rfl, ⟨rfl, rfl⟩, fun _ => Iff.rfl⟩
  | @wrote _ rnti binding state behind held written =>
      have distinct : binding.ue ≠ ue := by
        rintro rfl
        apply other
        rw [addressee?_of_link behind, ueOf?, held, Option.map_some]
      exact service.alike_of_differOnly distinct (Store.differOnly_put _ _ _)

theorem Coherent.unknown_of_takesOver {service : Service α} (coherent : service.Coherent)
    {ue : UeId} {call : ServiceCall} (taken : service.TakesOver ue call) :
    (service.handle call).service.Unknown ue := by
  cases call with
  | serve time other cell rnti => exact coherent.unknown_of_serve taken.1 time cell taken.2
  | neighbour time rnti cell rsrp rsrq => exact taken.elim
  | evaluate time rnti rsrp rsrq => exact taken.elim

/-! ## Runs -/

theorem handle_fixed (service : Service α) (call : ServiceCall) :
    (service.handle call).service.evaluator = service.evaluator ∧
      (service.handle call).service.store.historyLength = service.store.historyLength := by
  have effect := service.handle_effect call
  generalize (service.handle call).service = after at effect ⊢
  cases effect with
  | serve time ue cell rnti => exact ⟨rfl, service.serve_historyLength time ue cell rnti⟩
  | ignored behind unbound => exact ⟨rfl, rfl⟩
  | wrote behind held written => exact ⟨rfl, rfl⟩

theorem run_fixed (service : Service α) (calls : List ServiceCall) :
    (service.run calls).evaluator = service.evaluator ∧
      (service.run calls).store.historyLength = service.store.historyLength := by
  induction calls generalizing service with
  | nil => exact ⟨rfl, rfl⟩
  | cons call rest ih =>
      rw [run_cons, (ih _).1, (ih _).2]
      exact service.handle_fixed call

/-- The calls of a run that are addressed to a terminal when they are made. -/
def addressed (service : Service α) (ue : UeId) : List ServiceCall → List ServiceCall
  | [] => []
  | call :: rest =>
    let later := (service.handle call).service.addressed ue rest
    if service.addressee? call = some ue then call :: later else later

/-- The answers that a run gives. -/
def answers (service : Service α) : List ServiceCall → List CellId
  | [] => []
  | call :: rest =>
    (service.handle call).answer.toList ++ (service.handle call).service.answers rest

/-- The answers that a run gives to a terminal. -/
def answersTo (service : Service α) (ue : UeId) : List ServiceCall → List CellId
  | [] => []
  | call :: rest =>
    let later := (service.handle call).service.answersTo ue rest
    if service.addressee? call = some ue then (service.handle call).answer.toList ++ later
    else later

/-- No other terminal takes the link of a terminal over in a run. -/
def Undisturbed (service : Service α) (ue : UeId) : List ServiceCall → Prop
  | [] => True
  | call :: rest =>
    ¬service.TakesOver ue call ∧ (service.handle call).service.Undisturbed ue rest

theorem undisturbed_concat (service : Service α) {ue : UeId} {calls : List ServiceCall}
    {call : ServiceCall} (earlier : service.Undisturbed ue calls)
    (kept : ¬(service.run calls).TakesOver ue call) :
    service.Undisturbed ue (calls ++ [call]) := by
  induction calls generalizing service with
  | nil => exact ⟨kept, trivial⟩
  | cons head rest ih => exact ⟨earlier.1, ih _ earlier.2 kept⟩

/-- As long as its link is not taken over, a terminal is served as if only the
calls addressed to it were made. -/
theorem Alike.run {ue : UeId} {first second : Service α} (alike : Alike ue first second)
    {calls : List ServiceCall} (undisturbed : first.Undisturbed ue calls) :
    Alike ue (first.run calls) (second.run (first.addressed ue calls)) ∧
      first.answersTo ue calls = second.answers (first.addressed ue calls) := by
  induction calls generalizing first second with
  | nil => exact ⟨alike, rfl⟩
  | cons call rest ih =>
      rcases undisturbed with ⟨kept, undisturbed⟩
      rw [addressed, answersTo, run_cons]
      by_cases own : first.addressee? call = some ue
      · rcases alike.handle own with ⟨next, answer⟩
        rcases ih next undisturbed with ⟨run, answers⟩
        simp only [if_pos own]
        rw [run_cons, Service.answers, answer, answers]
        exact ⟨run, rfl⟩
      · simp only [if_neg own]
        exact ih ((first.alike_handle own kept).trans alike) undisturbed

/-! ## Takeovers -/

/-- The second part of a run holds the calls since the link of a terminal was
last taken over, or all of them if it never was. -/
structure LastTakeover (service : Service α) (ue : UeId)
    (calls before after : List ServiceCall) : Prop where
  split : calls = before ++ after
  taken : before = [] ∨ ∃ earlier call, before = earlier ++ [call] ∧
    (service.run earlier).TakesOver ue call
  undisturbed : (service.run before).Undisturbed ue after

theorem exists_lastTakeover (service : Service α) (ue : UeId) (calls : List ServiceCall) :
    ∃ before after, service.LastTakeover ue calls before after := by
  induction calls using List.reverseRecOn with
  | nil => exact ⟨[], [], rfl, .inl rfl, trivial⟩
  | append_singleton calls call ih =>
      -- A takeover by the last call is the last one; otherwise the earlier one stays it.
      by_cases taken : (service.run calls).TakesOver ue call
      · exact ⟨calls ++ [call], [], (List.append_nil _).symm, .inr ⟨calls, call, rfl, taken⟩,
          trivial⟩
      · rcases ih with ⟨before, after, rfl, last, undisturbed⟩
        rw [run_append] at taken
        exact ⟨before, after ++ [call], List.append_assoc _ _ _, last,
          (service.run before).undisturbed_concat undisturbed taken⟩

omit [Scalar α] in
theorem unknown_ofEvaluator (evaluator : Inference.Evaluator α) (historyLength : Nat)
    (ue : UeId) : (ofEvaluator evaluator historyLength).Unknown ue :=
  ⟨nofun, rfl⟩

/-- Right after the last takeover nothing is known of a terminal. -/
theorem LastTakeover.unknown {evaluator : Inference.Evaluator α} {historyLength : Nat}
    {ue : UeId} {calls before after : List ServiceCall}
    (last : (ofEvaluator evaluator historyLength).LastTakeover ue calls before after) :
    ((ofEvaluator evaluator historyLength).run before).Unknown ue := by
  rcases last.taken with rfl | ⟨earlier, call, rfl, taken⟩
  · exact unknown_ofEvaluator evaluator historyLength ue
  · rw [run_append]
    exact ((coherent_ofEvaluator evaluator historyLength).run earlier).unknown_of_takesOver taken

/-- In every run there is a last takeover of the link of a terminal, or none at
all; what is known of the terminal at the end, and all that it was answered since
then, is what a new service with the same evaluator comes to when only the calls
addressed to the terminal since then are made. -/
theorem histories_stay_apart (evaluator : Inference.Evaluator α) (historyLength : Nat)
    (calls : List ServiceCall) (ue : UeId) :
    let service := ofEvaluator evaluator historyLength
    (∃ before after, service.LastTakeover ue calls before after) ∧
      ∀ before after, service.LastTakeover ue calls before after →
        let own := (service.run before).addressed ue after
        (service.run calls).store.state? ue = (service.run own).store.state? ue ∧
          (service.run before).answersTo ue after = service.answers own ∧
          ∀ rnti, (service.run calls).ueOf? rnti = some ue ↔
            (service.run own).ueOf? rnti = some ue := by
  intro service
  refine ⟨service.exists_lastTakeover ue calls, ?_⟩
  intro before after last
  have fixed := service.run_fixed before
  have alike : Alike ue (service.run before) service :=
    last.unknown.alike (unknown_ofEvaluator evaluator historyLength ue) fixed.1 fixed.2
  rcases alike.run last.undisturbed with ⟨run, answers⟩
  rw [← run_append, ← last.split] at run
  exact ⟨run.store.state?, answers, run.links⟩

theorem histories_stay_apart_usual :
    let calls : List ServiceCall :=
      [.serve ⟨0⟩ ⟨1⟩ ⟨5⟩ ⟨10⟩, .neighbour ⟨10⟩ ⟨10⟩ ⟨6⟩ 50 25, .serve ⟨20⟩ ⟨2⟩ ⟨7⟩ ⟨10⟩,
        .serve ⟨30⟩ ⟨1⟩ ⟨5⟩ ⟨12⟩, .neighbour ⟨40⟩ ⟨12⟩ ⟨8⟩ 40 20,
        .neighbour ⟨45⟩ ⟨10⟩ ⟨6⟩ 44 21, .evaluate ⟨50⟩ ⟨12⟩ 40 10]
    let own : List ServiceCall :=
      [.serve ⟨30⟩ ⟨1⟩ ⟨5⟩ ⟨12⟩, .neighbour ⟨40⟩ ⟨12⟩ ⟨8⟩ 40 20, .evaluate ⟨50⟩ ⟨12⟩ 40 10]
    ∃ service : Service Float, typeOne .usual = .ok service ∧
      service.LastTakeover ⟨1⟩ calls (calls.take 3) (calls.drop 3) ∧
      (service.run calls).store.state? ⟨1⟩ = (service.run own).store.state? ⟨1⟩ ∧
      (service.run (calls.take 3)).answersTo ⟨1⟩ (calls.drop 3) = service.answers own := by
  intro calls own
  obtain ⟨evaluator, built⟩ : ∃ evaluator : Inference.Evaluator Float,
      typeOne .usual = .ok (ofEvaluator evaluator 6) := ⟨_, rfl⟩
  have last : (ofEvaluator evaluator 6).LastTakeover ⟨1⟩ calls (calls.take 3) (calls.drop 3) :=
    { split := rfl
      taken := .inr ⟨calls.take 2, .serve ⟨20⟩ ⟨2⟩ ⟨7⟩ ⟨10⟩, rfl, by decide, rfl⟩
      undisturbed := ⟨fun taken => taken.1 rfl, id, id, id, trivial⟩ }
  have apart := (histories_stay_apart evaluator 6 calls ⟨1⟩).2 _ _ last
  exact ⟨_, built, last, apart.1, apart.2.1⟩

end Handover.Service
