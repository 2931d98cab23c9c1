import Handover.Inference.RuleBase
import Handover.Logging
import Handover.Measurement.Hysteresis
import Handover.Measurement.Timing
import Handover.Ue.Store

/-!
# Configuration

The handover algorithm and its parameters, chosen once when the engine starts.
A configuration may hold any values of its fields; `validate` says whether they
are usable.
-/

namespace Handover

open Fuzzy Inference Scalar

/-- Parameters of a fuzzy algorithm whose rule base has memberships `μ`. -/
structure FuzzyConfig (α μ : Type) where
  /-- Quality of the serving cell below which inference runs. -/
  servingThreshold : Level
  /-- Quality above which neighbours are reported. -/
  discoveryThreshold : Level
  /-- Score that a target has to exceed. -/
  abstentionThreshold : α
  /-- Age in milliseconds up to which a neighbour counts, if not the usual
  one. -/
  staleWindowMillis : Option UInt64
  /-- Quality samples kept for prediction. -/
  predictorWindow : UInt64
  /-- Rule base, if not the built-in one. -/
  ruleBase : Option (RuleBase α μ)
deriving BEq, Repr

/-- A handover algorithm and its parameters. -/
inductive AlgorithmConfig (α : Type) where
  /-- Never hand over. -/
  | noOp
  /-- Hand over to the best neighbour that is better by a margin for some
  time. -/
  | bestNeighbour (hysteresisDecibels : α) (timeToTriggerMillis : UInt32)
  /-- Hand over to a neighbour better by an offset once the serving cell is
  poor. -/
  | offset (servingThreshold neighbourOffset : Level)
  /-- Infer a target with ordinary membership functions. -/
  | typeOne (config : FuzzyConfig α (Membership α))
  /-- Infer a target with footprints of uncertainty. -/
  | typeTwo (config : FuzzyConfig α (Footprint α))
deriving BEq, Repr

/-- Configuration of the engine. -/
structure EngineConfig (α : Type) where
  /-- The algorithm. -/
  algorithm : AlgorithmConfig α
  /-- Report interval of every event, in milliseconds. -/
  reportIntervalMillis : UInt32
  /-- How much is logged. -/
  logLevel : LogLevel
deriving BEq, Repr

namespace FuzzyConfig

variable {α μ : Type} [Scalar α]

/-- Usual parameters. -/
def usual : FuzzyConfig α μ where
  servingThreshold := 34
  discoveryThreshold := 0
  abstentionThreshold := ofDecimal 75 2
  staleWindowMillis := none
  predictorWindow := 6
  ruleBase := none

/-- Stale window in milliseconds, given the usual one. -/
def staleMillis (config : FuzzyConfig α μ) (usualMillis : Nat) : Nat :=
  match config.staleWindowMillis with
  | none => usualMillis
  | some millis => millis.toNat

/-- Checks both thresholds, the abstention threshold and both windows, in this
order. -/
def validate (config : FuzzyConfig α μ) : Except (ConfigError α) Unit :=
  if 34 < config.servingThreshold then
    .error (.threshold .serving config.servingThreshold)
  else if 34 < config.discoveryThreshold then
    .error (.threshold .discovery config.discoveryThreshold)
  else if ¬(0 ≤ config.abstentionThreshold ∧ config.abstentionThreshold ≤ 1) then
    .error (.abstentionThreshold config.abstentionThreshold)
  else if config.staleWindowMillis = some 0 then
    .error .staleWindow
  else if config.predictorWindow = 0 then
    .error .predictorWindow
  else
    .ok ()

end FuzzyConfig

/-- Usual stale window of the type-1 algorithm: two report periods of 120
milliseconds. -/
def typeOneStaleMillis : Nat :=
  240

/-- Usual stale window of the type-2 algorithm: two report periods of 180
milliseconds. -/
def typeTwoStaleMillis : Nat :=
  360

namespace AlgorithmConfig

variable {α : Type} [Scalar α]

/-- Usual margin of the best-neighbour algorithm. -/
def usualHysteresis : α :=
  ofNat 3

/-- Usual time to trigger of the best-neighbour algorithm. -/
def usualTimeToTrigger : UInt32 :=
  256

/-- Usual serving threshold of the offset algorithm. -/
def usualServingThreshold : Level :=
  30

/-- Usual offset of the offset algorithm. -/
def usualNeighbourOffset : Level :=
  1

/-- The algorithm used unless another one is asked for. -/
def usual : AlgorithmConfig α :=
  .offset usualServingThreshold usualNeighbourOffset

/-- Name of the algorithm. -/
def name : AlgorithmConfig α → String
  | noOp => "no-op"
  | bestNeighbour .. => "a3-rsrq"
  | offset .. => "a2-a4-rsrq"
  | typeOne _ => "type1-fuzzy"
  | typeTwo _ => "type2-fuzzy"

/-- Stale window of a fuzzy algorithm in milliseconds. -/
def staleMillis? : AlgorithmConfig α → Option Nat
  | typeOne config => some (config.staleMillis typeOneStaleMillis)
  | typeTwo config => some (config.staleMillis typeTwoStaleMillis)
  | _ => none

/-- Checks the parameters. -/
def validate : AlgorithmConfig α → Except (ConfigError α) Unit
  | noOp => .ok ()
  | bestNeighbour hysteresis timeToTrigger => do
    let _ ← Hysteresis.ofDecibels hysteresis
    let _ ← TimeToTrigger.ofMillis timeToTrigger
    .ok ()
  | offset servingThreshold neighbourOffset =>
    if 34 < servingThreshold then .error (.threshold .servingCell servingThreshold)
    else if 34 < neighbourOffset then .error (.neighbourOffset neighbourOffset)
    else .ok ()
  | typeOne config => config.validate
  | typeTwo config => config.validate

end AlgorithmConfig

namespace EngineConfig

variable {α : Type} [Scalar α]

/-- Usual report interval in milliseconds. -/
def usualReportInterval : UInt32 :=
  120

/-- Usual configuration of an algorithm. -/
def ofAlgorithm (algorithm : AlgorithmConfig α) : EngineConfig α :=
  ⟨algorithm, usualReportInterval, .info⟩

/-- The configuration used unless another one is asked for. -/
def usual : EngineConfig α :=
  ofAlgorithm .usual

/-- Report interval of every event. -/
def reportInterval (config : EngineConfig α) : Except (ConfigError α) ReportInterval :=
  ReportInterval.ofMillis config.reportIntervalMillis

/-- Checks the report interval and then the parameters of the algorithm.  A
rule base is only checked when it is built. -/
def validate (config : EngineConfig α) : Except (ConfigError α) Unit := do
  let _ ← config.reportInterval
  config.algorithm.validate

/-- Sets the log destination up at the configured level. -/
def installLogging (config : EngineConfig α) (current : Option Subscriber) :
    Except Fault Subscriber :=
  Subscriber.install current config.logLevel.directive

end EngineConfig

end Handover
