import Handover.Proofs.Engine.Marks
import Mathlib.Algebra.BigOperators.Group.Finset.Piecewise

/-!
# Every terminal has an engine of its own

An engine that serves many terminals is as good as one engine for each of them.
What is known of a terminal, what its requests return and which handovers the
host is asked for are those of a run of its own requests, and the counters are
the sums of the counters of these runs.
-/

namespace Handover.Engine

variable {α : Type} [Scalar α]

/-! ## The requests of a terminal -/

/-- The requests that are about a terminal, in order. -/
def own (ue : UeId) (requests : List Request) : List Request :=
  requests.filter fun request => request.ue = ue

@[simp]
theorem own_nil (ue : UeId) : own ue [] = [] :=
  rfl

theorem own_cons_self {ue : UeId} {request : Request} (about : request.ue = ue)
    (rest : List Request) : own ue (request :: rest) = request :: own ue rest :=
  List.filter_cons_of_pos (decide_eq_true about)

theorem own_cons_of_ne {ue : UeId} {request : Request} (other : request.ue ≠ ue)
    (rest : List Request) : own ue (request :: rest) = own ue rest :=
  List.filter_cons_of_neg (by simpa using other)

theorem own_append (ue : UeId) (first second : List Request) :
    own ue (first ++ second) = own ue first ++ own ue second :=
  List.filter_append _ _

/-- What the requests that are about a terminal return in a run, in order. -/
def responses (engine : Engine α) (ue : UeId) (requests : List Request) :
    List (Answer × List (Warning α) × List HostCall) :=
  ((requests.zip (engine.steps requests)).filter fun entry => entry.1.ue = ue).map
    fun entry => entry.2.response

theorem responses_cons_self (engine : Engine α) {ue : UeId} {request : Request}
    (about : request.ue = ue) (rest : List Request) :
    engine.responses ue (request :: rest) =
      (engine.handle request).response :: (engine.handle request).engine.responses ue rest := by
  simp [responses, about]

theorem responses_cons_of_ne (engine : Engine α) {ue : UeId} {request : Request}
    (other : request.ue ≠ ue) (rest : List Request) :
    engine.responses ue (request :: rest) =
      (engine.handle request).engine.responses ue rest := by
  simp [responses, other]

theorem targets_cons (engine : Engine α) (request : Request) (rest : List Request) (ue : UeId) :
    engine.targets (request :: rest) ue =
      (engine.handle request).calls.filterMap (HostCall.targetFor? ue) ++
        (engine.handle request).engine.targets rest ue := by
  rw [targets, calls_cons, List.filterMap_append]
  rfl

/-- A request starts no handover of a terminal that it is not about. -/
theorem targets_cons_of_ne (engine : Engine α) {ue : UeId} {request : Request}
    (other : request.ue ≠ ue) (rest : List Request) :
    engine.targets (request :: rest) ue = (engine.handle request).engine.targets rest ue := by
  rw [targets_cons, handle_calls, Progress.filterMap_targetFor_of_ne other, List.nil_append]

/-! ## Two runs -/

/-- A request about another terminal makes no difference. -/
theorem Alike.handle_of_ne {ue : UeId} {first second : Engine α} (alike : Alike ue first second)
    {request : Request} (other : request.ue ≠ ue) :
    Alike ue (first.handle request).engine second :=
  ((confined_handle request).others first (Ne.symm other)).trans alike

theorem Alike.handle {first second : Engine α} {request : Request}
    (alike : Alike request.ue first second) :
    Alike request.ue (first.handle request).engine (second.handle request).engine :=
  (confined_handle request).alike alike

theorem Alike.run {ue : UeId} {first second : Engine α} (alike : Alike ue first second)
    (requests : List Request) : Alike ue (first.run requests) (second.run (own ue requests)) := by
  induction requests generalizing first second with
  | nil => exact alike
  | cons request rest ih =>
      by_cases about : request.ue = ue
      · subst about
        rw [own_cons_self rfl, run_cons, run_cons]
        exact ih alike.handle
      · rw [own_cons_of_ne about, run_cons]
        exact ih (alike.handle_of_ne about)

theorem Alike.responses {ue : UeId} {first second : Engine α} (alike : Alike ue first second)
    (requests : List Request) :
    first.responses ue requests = (second.steps (own ue requests)).map Step.response := by
  induction requests generalizing first second with
  | nil => rfl
  | cons request rest ih =>
      by_cases about : request.ue = ue
      · subst about
        rw [own_cons_self rfl, responses_cons_self _ rfl, steps_cons, List.map_cons,
          (confined_handle request).response alike, ih alike.handle]
      · rw [own_cons_of_ne about, responses_cons_of_ne _ about]
        exact ih (alike.handle_of_ne about)

theorem Alike.targets {ue : UeId} {first second : Engine α} (alike : Alike ue first second)
    (requests : List Request) : first.targets requests ue = second.targets (own ue requests) ue := by
  induction requests generalizing first second with
  | nil => rfl
  | cons request rest ih =>
      by_cases about : request.ue = ue
      · subst about
        rw [own_cons_self rfl, targets_cons, targets_cons, (confined_handle request).calls alike,
          ih alike.handle]
      · rw [own_cons_of_ne about, targets_cons_of_ne _ about]
        exact ih (alike.handle_of_ne about)

/-! ## Forgetting -/

theorem run_strategy (engine : Engine α) (requests : List Request) :
    (engine.run requests).strategy = engine.strategy := by
  refine run_induction (motive := fun current => current.strategy = engine.strategy) rfl ?_ _
  intro current request same
  rw [(confined_handle request).strategy]
  exact same

theorem run_historyLength (engine : Engine α) (requests : List Request) :
    (engine.run requests).store.historyLength = engine.store.historyLength := by
  refine run_induction
    (motive := fun current => current.store.historyLength = engine.store.historyLength) rfl ?_ _
  intro current request same
  rw [((confined_handle request).differOnly current).historyLength]
  exact same

/-- A terminal that was removed is like one that was never heard of. -/
theorem Fresh.alike_remove {engine : Engine α} (fresh : engine.Fresh) (requests : List Request)
    (ue : UeId) : Alike ue (engine.run (requests ++ [.remove ue])) engine where
  strategy := engine.run_strategy _
  store :=
    { historyLength := engine.run_historyLength _
      state? := by
        rw [run_append, fresh.unknown]
        exact Store.state?_remove_self _ _ }

/-! ## Sums of counters -/

/-- One more request adds to the run of its terminal what it adds to the run of
all. -/
theorem own_run_stats (engine : Engine α) (requests : List Request) (request : Request)
    (ue : UeId) :
    (engine.run (own ue (requests ++ [request]))).stats =
      (engine.run (own ue requests)).stats +
        if request.ue = ue then ((engine.run requests).progress request).counted else 0 := by
  rw [own_append]
  by_cases about : request.ue = ue
  · subst about
    have alike : Alike request.ue engine engine := ⟨rfl, rfl, rfl⟩
    rw [own_cons_self rfl, own_nil, run_append, run_cons, run_nil, handle_stats, if_pos rfl,
      progress_alike (alike.run requests)]
  · rw [own_cons_of_ne about, own_nil, List.append_nil, if_neg about, add_zero]

/-- The counters are the sums of those of the runs of single terminals, taken
over any terminals that include all those of the requests. -/
theorem Fresh.run_stats {engine : Engine α} (fresh : engine.Fresh) (requests : List Request)
    (ues : Finset UeId) (included : ∀ request ∈ requests, request.ue ∈ ues) :
    (engine.run requests).stats = ∑ ue ∈ ues, (engine.run (own ue requests)).stats := by
  induction requests using List.reverseRecOn with
  | nil =>
      rw [run_nil, fresh.stats]
      exact (Finset.sum_eq_zero fun _ _ => fresh.stats).symm
  | append_singleton requests request ih =>
      have earlier : ∀ request ∈ requests, request.ue ∈ ues := by
        intro request member
        exact included request (List.mem_append_left _ member)
      have last : request.ue ∈ ues := included request List.mem_concat_self
      rw [run_append, run_cons, run_nil, handle_stats, ih earlier]
      simp only [own_run_stats]
      rw [Finset.sum_add_distrib, Finset.sum_ite_eq, if_pos last]

/-! ## Sharding -/

/-- Runs of the requests of single terminals tell all of a run of requests. -/
structure Sharded (engine : Engine α) (requests : List Request) : Prop where
  /-- What is known of a terminal follows from its own requests. -/
  state : ∀ ue, (engine.run requests).store.state? ue =
    (engine.run (own ue requests)).store.state? ue
  /-- So does all that its requests return. -/
  responses : ∀ ue, engine.responses ue requests =
    (engine.steps (own ue requests)).map Step.response
  /-- So do the handovers that the host is asked for. -/
  targets : ∀ ue, engine.targets requests ue = engine.targets (own ue requests) ue
  /-- Of the requests before its removal, none has any influence. -/
  forgotten : ∀ ue before after, requests = before ++ .remove ue :: after →
    (engine.run requests).store.state? ue = (engine.run (own ue after)).store.state? ue ∧
    (engine.run (before ++ [.remove ue])).responses ue after =
      (engine.steps (own ue after)).map Step.response ∧
    (engine.run (before ++ [.remove ue])).targets after ue = engine.targets (own ue after) ue
  /-- The counters of the single runs sum up to those of the run of all. -/
  stats : (engine.run requests).stats =
    ∑ ue ∈ (requests.map Request.ue).toFinset, (engine.run (own ue requests)).stats

/-- An engine serves every terminal as if there were no other, and a terminal
that was removed as if it were new. -/
theorem sharded_by_terminal {config : EngineConfig α} {engine : Engine α}
    (started : (start config).result = .ok engine) (requests : List Request) :
    engine.Sharded requests := by
  have fresh := fresh_of_start started
  have alike : ∀ ue, Alike ue engine engine := fun _ => ⟨rfl, rfl, rfl⟩
  constructor
  · intro ue
    exact ((alike ue).run requests).state?
  · intro ue
    exact (alike ue).responses requests
  · intro ue
    exact (alike ue).targets requests
  · intro ue before after split
    have forgotten := fresh.alike_remove before ue
    refine ⟨?_, forgotten.responses after, forgotten.targets after⟩
    rw [split, List.append_cons, run_append]
    exact (forgotten.run after).state?
  · refine fresh.run_stats requests _ ?_
    intro request member
    rw [List.mem_toFinset]
    exact List.mem_map_of_mem member

theorem sharded_by_terminal_usual :
    let requests : List Request :=
      [.offer ⟨⟨1⟩, some ⟨5⟩⟩, .connect ⟨2⟩ ⟨7⟩ ⟨40⟩, .offer ⟨⟨2⟩, some ⟨5⟩⟩, .remove ⟨1⟩,
        .acknowledge ⟨2⟩ .completed, .offer ⟨⟨1⟩, some ⟨6⟩⟩]
    ∃ engine : Engine Float, (start .usual).result = .ok engine ∧
      engine.targets requests ⟨1⟩ = [⟨5⟩, ⟨6⟩] ∧ engine.Sharded requests :=
  ⟨_, rfl, by decide, @sharded_by_terminal Float _ .usual _ rfl _⟩

end Handover.Engine
