import Handover.Fuzzy.Error
import Handover.Measurement.Report

/-!
# Warnings

What the engine reports about inputs that it has to pass over.  Warnings never
change a result; they say why there is none.
-/

namespace Handover

open Fuzzy

/-- What a remote call asked for. -/
inductive Activity where
  /-- Storing a result for a neighbour. -/
  | neighbourUpdate
  /-- Looking for a target. -/
  | evaluation
deriving DecidableEq, Repr

/-- A warning. -/
inductive Warning (α : Type) where
  /-- A report, or a part of it, is unusable. -/
  | report (ue : UeId) (error : ReportError)
  /-- The quality of the serving cell contradicts the event of the report. -/
  | inconsistent (ue : UeId) (servingRsrq threshold : Level)
  /-- A triggered handover did not succeed. -/
  | handoverFailed (ue : UeId)
  /-- A remote call named a radio link without a terminal. -/
  | unknownRnti (activity : Activity) (rnti : Rnti)
  /-- The serving cell has no link quality. -/
  | servingUnavailable (ue : UeId) (error : FuzzyError α)
  /-- A neighbour has no score. -/
  | notScored (ue : UeId) (cell : CellId) (error : FuzzyError α)
deriving BEq, Repr

namespace Activity

/-- Text of an activity in messages. -/
def text : Activity → String
  | neighbourUpdate => "neighbour update"
  | evaluation => "evaluation"

end Activity

namespace Warning

/-- Text of a warning. -/
def message {α : Type} [DecimalText α] : Warning α → String
  | report ue error => ue.text ++ ": " ++ error.message
  | inconsistent ue servingRsrq threshold =>
    ue.text ++ ": inconsistent A2 report, serving RSRQ " ++ servingRsrq.text ++
      " above threshold " ++ threshold.text
  | handoverFailed ue => ue.text ++ ": handover failed"
  | unknownRnti activity rnti =>
    activity.text ++ ": unknown RNTI " ++ rnti.text ++ ", ignoring"
  | servingUnavailable ue error =>
    ue.text ++ ": serving link quality unavailable: " ++ error.message
  | notScored ue cell error =>
    ue.text ++ ": " ++ cell.text ++ " not scored: " ++ error.message

end Warning

end Handover
