import Handover.Proofs.Fuzzy.Naming
import Handover.Proofs.Inference.Failure
import Handover.Proofs.Inference.Ranking

/-!
# Values and inputs

The rules of a description name its inputs, so the order in which these are listed makes
no difference to a system as long as every input keeps its value.  The desirability of a
handover is inferred by name.  A link quality is not: the first input gets the predicted
quality and the second one its change, whatever their names are.  Listed the other way
round, the inputs of a link quality exchange their values, and nothing tells of it.
-/

namespace Handover

open Fuzzy Trend Scalar

/-! ## Lists the other way round -/

/-- The list, reversed or as it is. -/
def facing {τ : Type} (turned : Bool) (items : List τ) : List τ :=
  if turned then items.reverse else items

section Facing

variable {τ ρ : Type} (turned : Bool)

theorem length_facing (items : List τ) : (facing turned items).length = items.length := by
  cases turned <;> simp [facing]

theorem map_facing (change : τ → ρ) (items : List τ) :
    (facing turned items).map change = facing turned (items.map change) := by
  cases turned <;> simp [facing]

theorem facing_perm (items : List τ) : (facing turned items).Perm items := by
  cases turned with
  | false => exact .refl _
  | true => exact items.reverse_perm

theorem zip_facing {items : List τ} {others : List ρ} (paired : items.length = others.length) :
    (facing turned items).zip (facing turned others) = facing turned (items.zip others) := by
  cases turned with
  | false => rfl
  | true => exact (List.reverse_zipWith paired).symm

end Facing

/-! ## Descriptions -/

namespace Fuzzy

variable {α μ : Type}

/-- The description with its inputs the other way round, or as they are. -/
def Definition.facing (turned : Bool) (definition : Definition α μ) : Definition α μ :=
  { definition with inputs := Handover.facing turned definition.inputs }

theorem Definition.relists_facing (turned : Bool) (definition : Definition α μ) :
    definition.Relists (definition.facing turned) :=
  ⟨(facing_perm turned _).symm, rfl, rfl⟩

variable {δ : Type} [Scalar α] [Grading μ α δ]

/-- A description can be built with its inputs the other way round.  The system gives the
values of the inputs back to them if these are turned too. -/
theorem Definition.exists_build_facing (turned : Bool) {definition : Definition α μ}
    {system : System α μ} (built : definition.build = .ok system) :
    ∃ other, (definition.facing turned).build = .ok other ∧
      other.inputNames = Handover.facing turned system.inputNames ∧
      ∀ crisp, SameValues system other crisp (Handover.facing turned crisp) := by
  have relists := definition.relists_facing turned
  obtain ⟨other, rebuilt⟩ := relists.exists_build built
  have inputs : other.inputs = Handover.facing turned system.inputs := by
    rw [(builds_of_build rebuilt).inputs, (builds_of_build built).inputs]
    rfl
  refine ⟨other, rebuilt, ?_, fun crisp => ?_⟩
  · rw [System.inputNames, inputs, map_facing]
    rfl
  · refine relists.sameValues built rebuilt (length_facing turned crisp) fun fits => ?_
    rw [inputs, zip_facing turned fits.symm]
    exact (facing_perm turned _).symm

end Fuzzy

namespace Inference

variable {α : Type} [Scalar α]

/-- The rule base with the inputs of some of its descriptions the other way round. -/
def RuleBase.facing {μ : Type} (links : Role → Bool) (trigger : Bool) (rules : RuleBase α μ) :
    RuleBase α μ where
  servingQuality := rules.servingQuality.facing (links .serving)
  neighbourQuality := rules.neighbourQuality.facing (links .neighbour)
  trigger := rules.trigger.facing trigger

/-! ## Systems -/

namespace InferenceSystem

/-- The answer of the system when every input gets the value of its name. -/
def evaluateNamed (system : InferenceSystem α) (value : String → α) : Except (FuzzyError α) α :=
  system.evaluate (system.inputNames.map value)

/-- The same system, with its inputs the other way round or as they are. -/
structure Turns (turned : Bool) (system other : InferenceSystem α) : Prop where
  names : other.inputNames = facing turned system.inputNames
  answers : ∀ crisp, other.evaluate (facing turned crisp) = system.evaluate crisp

variable {turned : Bool} {system other : InferenceSystem α}

/-- By name a system gives the same answer either way round. -/
theorem Turns.evaluateNamed (turns : system.Turns turned other) (value : String → α) :
    other.evaluateNamed value = system.evaluateNamed value := by
  rw [InferenceSystem.evaluateNamed, turns.names, map_facing, turns.answers]
  rfl

theorem exists_turns_typeOne [FiniteOrder α] (turned : Bool)
    {definition : TypeOneDefinition α} {system : TypeOneSystem α}
    (built : definition.build = .ok system) :
    ∃ other, (definition.facing turned).build = .ok other ∧
      (typeOne system).Turns turned (typeOne other) := by
  obtain ⟨other, rebuilt, names, same⟩ := Definition.exists_build_facing turned built
  exact ⟨other, rebuilt, names, fun crisp => TypeOne.evaluate_shuffled
    (Definition.builds_of_build built) (Definition.builds_of_build rebuilt) (same crisp)⟩

theorem exists_turns_typeTwo [FiniteOrder α] (turned : Bool)
    {definition : TypeTwoDefinition α} {system : TypeTwoSystem α}
    (built : definition.build = .ok system) :
    ∃ other, (definition.facing turned).build = .ok other ∧
      (typeTwo system).Turns turned (typeTwo other) := by
  obtain ⟨other, rebuilt, names, same⟩ := Definition.exists_build_facing turned built
  exact ⟨other, rebuilt, names, fun crisp => TypeTwo.evaluate_shuffled
    (Definition.builds_of_build built) (Definition.builds_of_build rebuilt) (same crisp)⟩

end InferenceSystem

namespace Evaluator

/-- The same evaluator, with the inputs of some of its systems the other way round. -/
structure Turns (links : Role → Bool) (trigger : Bool) (evaluator other : Evaluator α) : Prop where
  links : ∀ role, (evaluator.linkSystem role).Turns (links role) (other.linkSystem role)
  trigger : evaluator.triggerSystem.Turns trigger other.triggerSystem
  threshold : other.abstentionThreshold = evaluator.abstentionThreshold
  window : other.staleWindow = evaluator.staleWindow

/-- A rule base is accepted whichever way round its inputs are listed. -/
theorem exists_turns {μ δ : Type} [Grading μ α δ] {kind : System α μ → InferenceSystem α}
    (turns : ∀ (turned : Bool) {definition : Definition α μ} {system : System α μ},
      definition.build = .ok system → ∃ other, (definition.facing turned).build = .ok other ∧
        (kind system).Turns turned (kind other))
    (links : Role → Bool) (trigger : Bool) {rules : RuleBase α μ} {threshold : α} {window : Nat}
    {evaluator : Evaluator α} (built : assemble kind rules threshold window = .ok evaluator) :
    ∃ other, assemble kind (rules.facing links trigger) threshold window = .ok other ∧
      evaluator.Turns links trigger other := by
  obtain ⟨serving, neighbour, desirability, first, second, third, rfl⟩ :=
    assemble_eq_ok_iff.mp built
  obtain ⟨otherServing, rebuiltFirst, turnsServing⟩ := turns (links .serving) first
  obtain ⟨otherNeighbour, rebuiltSecond, turnsNeighbour⟩ := turns (links .neighbour) second
  obtain ⟨otherTrigger, rebuiltThird, turnsTrigger⟩ := turns trigger third
  refine ⟨_, assemble_eq_ok_iff.mpr ⟨otherServing, otherNeighbour, otherTrigger, rebuiltFirst,
    rebuiltSecond, rebuiltThird, rfl⟩, ?_, turnsTrigger, rfl, rfl⟩
  rintro (_ | _)
  · exact turnsServing
  · exact turnsNeighbour

/-! ## Answers -/

/-- What the order of the inputs does to the answers of an evaluator. -/
structure Binds (links : Role → Bool) (evaluator other : Evaluator α) : Prop where
  trigger : ∀ serving neighbour,
    other.triggerScore serving neighbour = evaluator.triggerScore serving neighbour
  kept : ∀ role, links role = false →
    ∀ samples, other.linkQuality role samples = evaluator.linkQuality role samples
  /-- In this order, the values of a link quality are bound by name. -/
  ordered : ∀ role samples predicted change, forecast? role samples = some (predicted, change) →
    (evaluator.linkSystem role).inputNames = [rsrqName, changeName] →
      evaluator.linkQuality role samples = (evaluator.linkSystem role).evaluateNamed
        fun name => if name = rsrqName then predicted else change
  /-- Turned, they are exchanged. -/
  exchanged : ∀ role samples predicted change,
    forecast? role samples = some (predicted, change) → links role = true →
      other.linkQuality role samples = (evaluator.linkSystem role).evaluate [change, predicted]
  selected : (∀ role, links role = false) → ∀ state now servingRsrq,
    other.selectTarget state now servingRsrq = evaluator.selectTarget state now servingRsrq

section Answers

variable {links : Role → Bool} {trigger : Bool} {evaluator other : Evaluator α}

theorem linkQuality_of_forecast {role : Role} {samples : List α} {predicted change : α}
    (made : forecast? role samples = some (predicted, change)) :
    evaluator.linkQuality role samples =
      (evaluator.linkSystem role).evaluate [predicted, change] := by
  rw [linkQuality_eq, quality, made]

/-- An evaluation is determined by the three inferences, the threshold and the stale
window. -/
theorem selectTarget_congr
    (qualities : ∀ role samples, other.linkQuality role samples = evaluator.linkQuality role samples)
    (scores : ∀ serving neighbour,
      other.triggerScore serving neighbour = evaluator.triggerScore serving neighbour)
    (threshold : other.abstentionThreshold = evaluator.abstentionThreshold)
    (window : other.staleWindow = evaluator.staleWindow) (state : UeState) (now : Instant)
    (servingRsrq : Level) :
    other.selectTarget state now servingRsrq = evaluator.selectTarget state now servingRsrq := by
  have serving : other.servingQuality = evaluator.servingQuality := funext (qualities .serving)
  have neighbour : other.neighbourQuality = evaluator.neighbourQuality :=
    funext (qualities .neighbour)
  have score : other.score = evaluator.score := by
    funext quality record
    simp only [Evaluator.score, neighbour, scores]
  have usable (now lastUpdate : Instant) (rsrq : Level) :
      other.Usable now lastUpdate rsrq ↔ evaluator.Usable now lastUpdate rsrq := by
    rw [Usable, Usable, window]
  have examines : other.examine = evaluator.examine := by
    funext now quality found candidate
    simp only [examine, weigh, usable, score, threshold]
  simp only [selectTarget, scan, serving, examines]

theorem Turns.linkQuality_of_not (turns : evaluator.Turns links trigger other) {role : Role}
    (kept : links role = false) (samples : List α) :
    other.linkQuality role samples = evaluator.linkQuality role samples := by
  obtain ⟨names, answers⟩ := turns.links role
  rw [kept] at names answers
  rw [linkQuality_eq, linkQuality_eq, quality, quality, names]
  split
  · rfl
  · exact answers _

theorem Turns.linkQuality_of_turned (turns : evaluator.Turns links trigger other) {role : Role}
    (turned : links role = true) {samples : List α} {predicted change : α}
    (made : forecast? role samples = some (predicted, change)) :
    other.linkQuality role samples = (evaluator.linkSystem role).evaluate [change, predicted] := by
  rw [linkQuality_of_forecast made, ← (turns.links role).answers, turned]
  rfl

theorem Turns.binds (turns : evaluator.Turns links trigger other) :
    evaluator.Binds links other where
  trigger _ _ := turns.trigger.evaluateNamed _
  kept _ kept := turns.linkQuality_of_not kept
  ordered role samples predicted change made names := by
    rw [linkQuality_of_forecast made, InferenceSystem.evaluateNamed, names]
    rfl
  exchanged _ _ _ _ made turned := turns.linkQuality_of_turned turned made
  selected kept := selectTarget_congr (fun role => turns.linkQuality_of_not (kept role))
    (fun _ _ => turns.trigger.evaluateNamed _) turns.threshold turns.window

end Answers

/-- A rule base is accepted in any order of its inputs.  The order makes no difference to
the desirability, and none to an evaluation if it is left as it is for the link qualities;
these exchange their values when they are turned. -/
theorem inputs_bound [FiniteOrder α] (links : Role → Bool) (trigger : Bool) (threshold : α)
    (window : Nat) :
    (∀ (rules : RuleBase α (Membership α)) (evaluator : Evaluator α),
      typeOne rules threshold window = .ok evaluator →
        ∃ other, typeOne (rules.facing links trigger) threshold window = .ok other ∧
          evaluator.Binds links other) ∧
    ∀ (rules : RuleBase α (Footprint α)) (evaluator : Evaluator α),
      typeTwo rules threshold window = .ok evaluator →
        ∃ other, typeTwo (rules.facing links trigger) threshold window = .ok other ∧
          evaluator.Binds links other := by
  rw [typeOne_eq_assemble, typeTwo_eq_assemble]
  constructor
  · intro rules evaluator built
    obtain ⟨other, rebuilt, turns⟩ := exists_turns
      (fun turned _ _ => InferenceSystem.exists_turns_typeOne turned) links trigger built
    exact ⟨other, rebuilt, turns.binds⟩
  · intro rules evaluator built
    obtain ⟨other, rebuilt, turns⟩ := exists_turns
      (fun turned _ _ => InferenceSystem.exists_turns_typeTwo turned) links trigger built
    exact ⟨other, rebuilt, turns.binds⟩

/-- The link quality of the serving cell alone. -/
def servingOnly : Role → Bool
  | .serving => true
  | .neighbour => false

theorem inputs_bound_plain :
    ∃ evaluator, typeOne plain (.number (1 / 2)) 240000 = .ok evaluator ∧
      ∃ other, typeOne (plain.facing servingOnly true) (.number (1 / 2)) 240000 = .ok other ∧
        other.triggerScore (.number 1) (.number 0) =
          evaluator.triggerScore (.number 1) (.number 0) ∧
        other.neighbourQuality [.number 16] = evaluator.neighbourQuality [.number 16] ∧
        other.servingQuality [.number 16] =
          evaluator.servingSystem.evaluate [.number 1, .number 17] := by
  have builds : (typeOne plain (.number (1 / 2)) 240000).toOption.any (fun _ => true) = true := by
    decide +kernel
  have made : forecast? .serving [(.number 16 : Extended ℚ)] = some (.number 17, .number 1) := by
    decide +kernel
  obtain ⟨evaluator, built, _⟩ := exists_of_any_toOption builds
  obtain ⟨other, rebuilt, binds⟩ :=
    (inputs_bound servingOnly true (.number (1 / 2)) 240000).1 plain evaluator built
  exact ⟨evaluator, built, other, rebuilt, binds.trigger _ _, binds.kept .neighbour rfl _,
    binds.exchanged .serving _ _ _ made rfl⟩

/-- With the inputs of its link quality turned, a serving cell of middle quality counts as
a bad one: what is judged is the expected change. -/
theorem order_changes_quality :
    ∃ evaluator, typeOne plain (.number (1 / 2)) 240000 = .ok evaluator ∧
      evaluator.servingSystem.inputNames = [rsrqName, changeName] ∧
      evaluator.servingQuality [.number 16] = .ok (.number (1 / 2)) ∧
      ∃ other, typeOne (plain.facing servingOnly false) (.number (1 / 2)) 240000 = .ok other ∧
        other.servingSystem.inputNames = [changeName, rsrqName] ∧
        other.servingQuality [.number 16] = .ok (.number (1 / 34)) := by
  have before : (typeOne plain (.number (1 / 2)) 240000).toOption.any (fun evaluator =>
      decide (evaluator.servingSystem.inputNames = [rsrqName, changeName]) &&
        (evaluator.servingQuality [.number 16]).toOption.any (· = .number (1 / 2))) = true := by
    decide +kernel
  have after : (typeOne (plain.facing servingOnly false) (.number (1 / 2)) 240000).toOption.any
      (fun other => decide (other.servingSystem.inputNames = [changeName, rsrqName]) &&
        (other.servingQuality [.number 16]).toOption.any (· = .number (1 / 34))) = true := by
    decide +kernel
  obtain ⟨evaluator, built, before⟩ := exists_of_any_toOption before
  obtain ⟨other, rebuilt, after⟩ := exists_of_any_toOption after
  rw [Bool.and_eq_true, decide_eq_true_eq] at before after
  obtain ⟨quality, judged, half⟩ := exists_of_any_toOption before.2
  obtain ⟨misjudged, turned, little⟩ := exists_of_any_toOption after.2
  obtain rfl := of_decide_eq_true half
  obtain rfl := of_decide_eq_true little
  exact ⟨evaluator, built, before.1, judged, other, rebuilt, after.1, turned⟩

end Evaluator

end Inference

end Handover
