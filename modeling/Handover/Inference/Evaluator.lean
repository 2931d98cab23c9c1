import Handover.Inference.RuleBase
import Handover.Trend.Polynomial
import Handover.Ue.State
import Handover.Warning

/-!
# The evaluator

Scores every usable neighbour of a terminal by the desirability of a handover
to it and picks the best one above a threshold.  Link qualities are inferred
from the predicted signal quality and its expected change, not from the last
sample.
-/

namespace Handover.Inference

open Fuzzy Trend Scalar

variable {α : Type} [Scalar α]

/-- A system of either kind. -/
inductive InferenceSystem (α : Type) where
  /-- With ordinary membership functions. -/
  | typeOne (system : TypeOneSystem α)
  /-- With footprints of uncertainty. -/
  | typeTwo (system : TypeTwoSystem α)

namespace InferenceSystem

/-- The answer of the system to one crisp value per input.  That its output may have too
many sample points to hold them is left out from here on. -/
def evaluate : InferenceSystem α → List α → Except (FuzzyError α) α
  | typeOne system, crisp => TypeOne.evaluate system crisp
  | typeTwo system, crisp => TypeTwo.evaluate system crisp

/-- Names of the inputs. -/
def inputNames : InferenceSystem α → List String
  | typeOne system => system.inputNames
  | typeTwo system => system.inputNames

end InferenceSystem

/-- The three chained systems, the score that a target has to exceed, and the
age up to which a record counts. -/
structure Evaluator (α : Type) where
  /-- Link quality of the serving cell. -/
  servingSystem : InferenceSystem α
  /-- Link quality of a neighbour. -/
  neighbourSystem : InferenceSystem α
  /-- Desirability of a handover. -/
  triggerSystem : InferenceSystem α
  /-- Score that a target has to exceed. -/
  abstentionThreshold : α
  /-- Greatest age of a usable record in microseconds. -/
  staleWindow : Nat

/-- State after an evaluation, the chosen target with its score, and the
warnings on the way. -/
structure Selection (α : Type) where
  /-- State afterwards. -/
  state : UeState
  /-- The target and its score. -/
  choice : Option (CellId × α)
  /-- Warnings, in order. -/
  warnings : List (Warning α)

/-- A neighbour that an evaluation has to look at, as it was when the evaluation
began. -/
structure Candidate where
  /-- The neighbour. -/
  cell : CellId
  /-- When it was last reported. -/
  lastUpdate : Instant
  /-- Its last quality. -/
  rsrq : Level

/-- The candidate of a record. -/
def Candidate.ofRecord (record : NeighbourRecord) : Candidate :=
  ⟨record.cell, record.lastUpdate, record.rsrq⟩

namespace Evaluator

/-- An evaluator over ordinary membership functions. -/
def typeOne (rules : RuleBase α (Membership α)) (abstentionThreshold : α) (staleWindow : Nat) :
    Except (FuzzyError α) (Evaluator α) := do
  let serving ← rules.servingQuality.build
  let neighbour ← rules.neighbourQuality.build
  let trigger ← rules.trigger.build
  .ok ⟨.typeOne serving, .typeOne neighbour, .typeOne trigger, abstentionThreshold, staleWindow⟩

/-- An evaluator over footprints of uncertainty. -/
def typeTwo (rules : RuleBase α (Footprint α)) (abstentionThreshold : α) (staleWindow : Nat) :
    Except (FuzzyError α) (Evaluator α) := do
  let serving ← rules.servingQuality.build
  let neighbour ← rules.neighbourQuality.build
  let trigger ← rules.trigger.build
  .ok ⟨.typeTwo serving, .typeTwo neighbour, .typeTwo trigger, abstentionThreshold, staleWindow⟩

/-- Link quality under a system of a cell with the given samples. -/
def quality (system : InferenceSystem α) (role : Role) (samples : List α) :
    Except (FuzzyError α) α :=
  match forecast? role samples with
  | none => .error (.emptyOutput ("/".intercalate system.inputNames ++ " (no RSRQ samples)"))
  | some (predicted, change) => system.evaluate [predicted, change]

/-- Link quality of a serving cell with the given samples. -/
def servingQuality (evaluator : Evaluator α) (samples : List α) : Except (FuzzyError α) α :=
  quality evaluator.servingSystem .serving samples

/-- Link quality of a neighbour with the given samples. -/
def neighbourQuality (evaluator : Evaluator α) (samples : List α) : Except (FuzzyError α) α :=
  quality evaluator.neighbourSystem .neighbour samples

/-- Desirability of a handover between two link qualities, which are bound to
the inputs by name. -/
def triggerScore (evaluator : Evaluator α) (serving neighbour : α) : Except (FuzzyError α) α :=
  evaluator.triggerSystem.evaluate
    (evaluator.triggerSystem.inputNames.map fun name =>
      if name = neighbourQualityName then neighbour else serving)

/-- A quality that was last updated at some time may take part in an
evaluation. -/
def Usable (evaluator : Evaluator α) (now lastUpdate : Instant) (rsrq : Level) : Prop :=
  rsrq ≠ 0 ∧ now.since lastUpdate ≤ evaluator.staleWindow

instance (evaluator : Evaluator α) (now lastUpdate : Instant) (rsrq : Level) :
    Decidable (evaluator.Usable now lastUpdate rsrq) :=
  inferInstanceAs (Decidable (_ ∧ _))

/-- The samples of a history as scalars. -/
def samplesOf (history : History) : List α :=
  history.samples.map fun sample => ofNat sample.toNat

/-- Score of a record for a serving cell of the given link quality. -/
def score (evaluator : Evaluator α) (serving : α) (record : NeighbourRecord) :
    Except (FuzzyError α) α := do
  let neighbour ← evaluator.neighbourQuality (samplesOf record.history)
  evaluator.triggerScore serving neighbour

/-- The record is not of the serving cell. -/
def isCandidate (state : UeState) (record : NeighbourRecord) : Bool :=
  some record.cell != state.servingCell

/-- The score is greater than that of the choice so far, if there is one. -/
def Improves (choice : Option (CellId × α)) (score : α) : Prop :=
  ∀ best ∈ choice, best.2 < score

instance (choice : Option (CellId × α)) (score : α) : Decidable (Improves choice score) :=
  inferInstanceAs (Decidable (∀ best ∈ choice, best.2 < score))

/-- Scores the record of a candidate.  One that cannot be scored leaves a warning, and one
whose score is above the threshold and greater than the best so far is the choice. -/
def weigh (evaluator : Evaluator α) (serving : α) (found : Selection α) (cell : CellId)
    (record : NeighbourRecord) : Selection α :=
  match evaluator.score serving record with
  | .error error =>
    { found with warnings := found.warnings ++ [.notScored found.state.ue cell error] }
  | .ok score =>
    if evaluator.abstentionThreshold < score ∧ Improves found.choice score then
      { found with choice := some (cell, score) }
    else found

/-- Looks at one candidate.  One that is stale or has no quality loses its history, and
one without a history is passed over. -/
def examine (evaluator : Evaluator α) (now : Instant) (serving : α) (found : Selection α)
    (candidate : Candidate) : Selection α :=
  if evaluator.Usable now candidate.lastUpdate candidate.rsrq then
    match found.state.neighbours.get? candidate.cell with
    | none => found
    | some record =>
      if record.history.isEmpty then found
      else evaluator.weigh serving found candidate.cell record
  else { found with state := found.state.resetNeighbourHistory candidate.cell }

/-- Looks at all candidates among the given records, one after the other.  They are
listed before the first one is looked at; their histories are read as they come up. -/
def scan (evaluator : Evaluator α) (now : Instant) (serving : α) (state : UeState)
    (records : List NeighbourRecord) : Selection α :=
  ((records.filter (isCandidate state)).map Candidate.ofRecord).foldl
    (evaluator.examine now serving) ⟨state, none, []⟩

/-- The state with one more sample of the serving cell. -/
def observe (state : UeState) (servingRsrq : Level) : UeState :=
  { state with servingHistory := state.servingHistory.push servingRsrq }

/-- Evaluates a terminal: adds the sample of the serving cell, scores every
usable candidate by ascending cell number, and chooses the best one above the
threshold. -/
def selectTarget (evaluator : Evaluator α) (state : UeState) (now : Instant)
    (servingRsrq : Level) : Selection α :=
  let observed := observe state servingRsrq
  match evaluator.servingQuality (samplesOf observed.servingHistory) with
  | .error error => ⟨observed, none, [.servingUnavailable state.ue error]⟩
  | .ok serving => evaluator.scan now serving observed observed.snapshot

end Evaluator

end Handover.Inference
