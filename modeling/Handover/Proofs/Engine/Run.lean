import Handover.Engine

/-!
# Runs of the engine

How a run splits into the run of its first requests and the run of the others
from the engine that they lead to.
-/

namespace Handover.Engine

variable {α : Type} [Scalar α]

@[simp]
theorem run_nil (engine : Engine α) : engine.run [] = engine :=
  rfl

@[simp]
theorem run_cons (engine : Engine α) (request : Request) (rest : List Request) :
    engine.run (request :: rest) = (engine.handle request).engine.run rest :=
  rfl

theorem run_append (engine : Engine α) (first second : List Request) :
    engine.run (first ++ second) = (engine.run first).run second :=
  List.foldl_append

@[simp]
theorem steps_nil (engine : Engine α) : engine.steps [] = [] :=
  rfl

@[simp]
theorem steps_cons (engine : Engine α) (request : Request) (rest : List Request) :
    engine.steps (request :: rest) =
      engine.handle request :: (engine.handle request).engine.steps rest :=
  rfl

theorem steps_append (engine : Engine α) (first second : List Request) :
    engine.steps (first ++ second) = engine.steps first ++ (engine.run first).steps second := by
  induction first generalizing engine with
  | nil => rfl
  | cons request rest ih =>
      rw [List.cons_append, steps_cons, steps_cons, ih, run_cons, List.cons_append]

/-- Every step of a run is the handling of a request after those before it. -/
theorem exists_of_mem_steps {engine : Engine α} {requests : List Request} {step : Step α Answer}
    (made : step ∈ engine.steps requests) :
    ∃ earlier request, earlier ++ [request] <+: requests ∧
      step = (engine.run earlier).handle request := by
  induction requests generalizing engine with
  | nil => cases made
  | cons request rest ih =>
      rw [steps_cons] at made
      rcases List.mem_cons.mp made with rfl | later
      · exact ⟨[], request, List.prefix_append [request] rest, rfl⟩
      · obtain ⟨earlier, last, begun, same⟩ := ih later
        exact ⟨request :: earlier, last, List.cons_prefix_cons.mpr ⟨rfl, begun⟩, same⟩

/-- Everything that the host is asked for in a run, in order. -/
def calls (engine : Engine α) (requests : List Request) : List HostCall :=
  (engine.steps requests).flatMap Step.calls

@[simp]
theorem calls_nil (engine : Engine α) : engine.calls [] = [] :=
  rfl

@[simp]
theorem calls_cons (engine : Engine α) (request : Request) (rest : List Request) :
    engine.calls (request :: rest) =
      (engine.handle request).calls ++ (engine.handle request).engine.calls rest :=
  rfl

theorem calls_append (engine : Engine α) (first second : List Request) :
    engine.calls (first ++ second) = engine.calls first ++ (engine.run first).calls second := by
  rw [calls, steps_append, List.flatMap_append]
  rfl

/-- What a step keeps, a run keeps. -/
theorem run_induction {motive : Engine α → Prop} {engine : Engine α} (start : motive engine)
    (step : ∀ current request, motive current → motive (current.handle request).engine)
    (requests : List Request) : motive (engine.run requests) := by
  induction requests generalizing engine with
  | nil => exact start
  | cons request rest ih => exact ih (step engine request start)

end Handover.Engine
