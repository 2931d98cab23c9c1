import Handover.Config.Basic
import Handover.Document.FieldValue
import Handover.Fuzzy.Document

/-!
# Configurations in documents

The document form of a configuration.  The parameters of the algorithm stand
beside the general settings, and the field `algorithm` names the variant.
Fields with a usual value may be left out, and fields that the chosen algorithm
does not have are passed over.
-/

namespace Handover

open Document Fuzzy Inference Scalar

variable {α : Type} [Scalar α]

section RuleBases

variable {μ : Type} [Documented α μ]

/-- The form of a rule base. -/
def Inference.RuleBase.encode (rules : RuleBase α μ) : Node α :=
  .record
    [("serving_rlq", rules.servingQuality.encode),
      ("neighbour_rlq", rules.neighbourQuality.encode), ("trigger", rules.trigger.encode)]

/-- Reading of a rule base. -/
def Inference.RuleBase.decode? (dialect : Dialect) (node : Node α) : Option (RuleBase α μ) := do
  match ← Record.slots? dialect ["serving_rlq", "neighbour_rlq", "trigger"] node with
  | [serving, neighbour, trigger] =>
    let serving ← Record.required? (Definition.decode? dialect) serving
    let neighbour ← Record.required? (Definition.decode? dialect) neighbour
    let trigger ← Record.required? (Definition.decode? dialect) trigger
    some ⟨serving, neighbour, trigger⟩
  | _ => none

namespace FuzzyConfig

/-- Names of the parameters. -/
def fieldNames : List String :=
  ["serving_threshold", "discovery_threshold", "abstention_threshold", "stale_window_ms",
    "predictor_window", "rule_base"]

/-- The parameters by name. -/
def encodeFields (config : FuzzyConfig α μ) : List (String × Node α) :=
  [("serving_threshold", .natural config.servingThreshold.toNat),
    ("discovery_threshold", .natural config.discoveryThreshold.toNat),
    ("abstention_threshold", .float config.abstentionThreshold),
    ("stale_window_ms",
      .ofOption (fun millis => .natural millis.toNat) config.staleWindowMillis),
    ("predictor_window", .natural config.predictorWindow.toNat),
    ("rule_base", .ofOption RuleBase.encode config.ruleBase)]

/-- Reading of the parameters. -/
def decode? (dialect : Dialect) (node : Node α) : Option (FuzzyConfig α μ) := do
  match ← Record.slots? dialect fieldNames node with
  | [serving, discovery, abstention, stale, window, rules] =>
    let serving ← Record.optional? 34 Node.uint8? serving
    let discovery ← Record.optional? 0 Node.uint8? discovery
    let abstention ← Record.optional? (ofDecimal 75 2) Node.scalar? abstention
    let stale ← Record.optional? none (Node.nullable? Node.uint64?) stale
    let window ← Record.optional? 6 Node.uint64? window
    let rules ← Record.optional? none (Node.nullable? (RuleBase.decode? dialect)) rules
    some ⟨serving, discovery, abstention, stale, window, rules⟩
  | _ => none

end FuzzyConfig

end RuleBases

namespace AlgorithmConfig

/-- Names of the algorithms. -/
def variants : List String :=
  ["no-op", "a3-rsrq", "a2-a4-rsrq", "type1-fuzzy", "type2-fuzzy"]

/-- The tag and the parameters by name. -/
def encodeFields (algorithm : AlgorithmConfig α) : List (String × Node α) :=
  ("algorithm", .text algorithm.name) ::
    match algorithm with
    | noOp => []
    | bestNeighbour hysteresis timeToTrigger =>
      [("hysteresis_db", .float hysteresis), ("time_to_trigger_ms", .natural timeToTrigger.toNat)]
    | offset servingThreshold neighbourOffset =>
      [("serving_cell_threshold", .natural servingThreshold.toNat),
        ("neighbour_cell_offset", .natural neighbourOffset.toNat)]
    | typeOne config => config.encodeFields
    | typeTwo config => config.encodeFields

/-- Reading of the parameters of the best-neighbour algorithm. -/
def decodeBestNeighbour? (node : Node α) : Option (AlgorithmConfig α) := do
  match ← Record.slots? .document ["hysteresis_db", "time_to_trigger_ms"] node with
  | [hysteresis, timeToTrigger] =>
    let hysteresis ← Record.optional? usualHysteresis Node.scalar? hysteresis
    let timeToTrigger ← Record.optional? usualTimeToTrigger Node.uint32? timeToTrigger
    some (.bestNeighbour hysteresis timeToTrigger)
  | _ => none

/-- Reading of the parameters of the offset algorithm. -/
def decodeOffset? (node : Node α) : Option (AlgorithmConfig α) := do
  match ← Record.slots? .document ["serving_cell_threshold", "neighbour_cell_offset"] node with
  | [servingThreshold, neighbourOffset] =>
    let servingThreshold ← Record.optional? usualServingThreshold Node.uint8? servingThreshold
    let neighbourOffset ← Record.optional? usualNeighbourOffset Node.uint8? neighbourOffset
    some (.offset servingThreshold neighbourOffset)
  | _ => none

/-- Reading of an algorithm and its parameters. -/
def decode? (dialect : Dialect) (node : Node α) : Option (AlgorithmConfig α) :=
  match Record.tagged? dialect "algorithm" variants node with
  | some (0, fields) => (Record.slots? .document [] fields).map fun _ => .noOp
  | some (1, fields) => decodeBestNeighbour? fields
  | some (2, fields) => decodeOffset? fields
  | some (3, fields) => (FuzzyConfig.decode? .document fields).map .typeOne
  | some (4, fields) => (FuzzyConfig.decode? .document fields).map .typeTwo
  | _ => none

end AlgorithmConfig

/-- The form of a log level. -/
def LogLevel.encode (level : LogLevel) : Node α :=
  .text level.name

/-- Reading of a log level, by its exact name. -/
def LogLevel.decode? (node : Node α) : Option LogLevel :=
  node.text?.bind LogLevel.ofName?

namespace EngineConfig

/-- The form of a configuration. -/
def encode (config : EngineConfig α) : Node α :=
  .record
    (config.algorithm.encodeFields ++
      [("report_interval_ms", .natural config.reportIntervalMillis.toNat),
        ("log_level", config.logLevel.encode)])

/-- What a field with a usual value reads, which must not occur twice. -/
def setting? {τ : Type} (fields : List (String × FieldValue α)) (name : String) (usual : τ)
    (read? : FieldValue α → Option τ) : Option τ :=
  match fields.filter fun (other, _) => other = name with
  | [] => some usual
  | [(_, field)] => read? field
  | _ => none

/-- Names of the general settings. -/
def settingNames : List String :=
  ["report_interval_ms", "log_level"]

/-- The fields beside the general settings, each of which has to have a value. -/
def parameters? (fields : List (String × FieldValue α)) : Option (Node α) :=
  let others := fields.filter fun (name, _) => !settingNames.contains name
  let entry? : String × FieldValue α → Option (Node α × Node α) :=
    fun (name, field) => field.node?.map (.text name, ·)
  (others.mapM entry?).map .map

/-- The configuration in the fields of a document. -/
def ofFields? (fields : List (String × FieldValue α)) : Option (EngineConfig α) := do
  let interval ← setting? fields "report_interval_ms" usualReportInterval FieldValue.uint32?
  let level ← setting? fields "log_level" .info fun field => field.name?.bind LogLevel.ofName?
  let algorithm ← AlgorithmConfig.decode? .document (← parameters? fields)
  some ⟨algorithm, interval, level⟩

/-- Reading of a configuration. -/
def decode? (node : Node α) : Option (EngineConfig α) :=
  node.fields?.bind ofFields?

end EngineConfig

end Handover
