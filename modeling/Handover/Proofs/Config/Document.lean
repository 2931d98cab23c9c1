import Handover.Config.Document
import Handover.Proofs.Fuzzy.Document

/-!
# Ways to write a configuration

A configuration may be written with any parameters and settings left out that have their
usual values, and with any fields that are neither settings nor parameters of the chosen
algorithm.  It is read as the same configuration, whatever its rule base is.
-/

namespace Handover

open Document Fuzzy Inference Scalar

variable {α : Type} [Scalar α]

section RuleBases

variable {μ : Type} [Documented α μ] [Varied α μ]

namespace Inference.RuleBase

/-- The node is a form of the rule base. -/
def Form (rules : RuleBase α μ) (node : Node α) : Prop :=
  IsRecord
    [.must "serving_rlq" rules.servingQuality.Form,
      .must "neighbour_rlq" rules.neighbourQuality.Form, .must "trigger" rules.trigger.Form] node

omit [Scalar α] in
theorem form_encode (rules : RuleBase α μ) : rules.Form rules.encode :=
  ⟨_, rfl, .kept rules.servingQuality.form_encode
    (.kept rules.neighbourQuality.form_encode (.kept rules.trigger.form_encode .nil))⟩

theorem decode?_of_form (dialect : Dialect) (rules : RuleBase α μ) (node : Node α)
    (form : rules.Form node) : decode? dialect node = some rules := by
  obtain ⟨slots, found, fits⟩ :=
    form.slots? dialect ["serving_rlq", "neighbour_rlq", "trigger"] rfl (by decide)
  rcases fits with _ | ⟨serving, _ | ⟨neighbour, _ | ⟨trigger, _ | _⟩⟩⟩
  have reads := Definition.decode?_of_form (α := α) (μ := μ) dialect
  simp only [decode?, found, FieldForm.required?_of_fits serving (reads _),
    FieldForm.required?_of_fits neighbour (reads _), FieldForm.required?_of_fits trigger (reads _),
    Option.bind_eq_bind, Option.bind_some]

end Inference.RuleBase

namespace FuzzyConfig

/-- The parameters as fields. -/
def fields (config : FuzzyConfig α μ) : List (FieldForm α) :=
  [.may "serving_threshold" 34 config.servingThreshold
      (· = .natural config.servingThreshold.toNat),
    .may "discovery_threshold" 0 config.discoveryThreshold
      (· = .natural config.discoveryThreshold.toNat),
    .may "abstention_threshold" (ofDecimal 75 2) config.abstentionThreshold
      (· = .float config.abstentionThreshold),
    .may "stale_window_ms" none config.staleWindowMillis
      (Node.IsOptionOf (fun millis node => node = .natural millis.toNat) config.staleWindowMillis),
    .may "predictor_window" 6 config.predictorWindow
      (· = .natural config.predictorWindow.toNat),
    .may "rule_base" none config.ruleBase (Node.IsOptionOf RuleBase.Form config.ruleBase)]

variable {known : List String} {entries : List (String × Node α)}

theorem written_encodeFields {more : List (FieldForm α)} (config : FuzzyConfig α μ)
    (rest : Written known more entries) :
    Written known (config.fields ++ more) (config.encodeFields ++ entries) := by
  have stale : Node.IsOptionOf (fun millis node => node = .natural millis.toNat)
      config.staleWindowMillis
      (.ofOption (fun millis => .natural millis.toNat : UInt64 → Node α)
        config.staleWindowMillis) := by
    refine Node.isOptionOf_ofOption (fun millis => ?_) _
    exact ⟨nofun, rfl⟩
  have rules : Node.IsOptionOf RuleBase.Form config.ruleBase
      (.ofOption RuleBase.encode config.ruleBase) := by
    refine Node.isOptionOf_ofOption (fun rules => ?_) _
    exact ⟨nofun, rules.form_encode⟩
  exact .kept rfl (.kept rfl (.kept rfl (.kept stale (.kept rfl (.kept rules rest)))))

theorem decode?_of_written (dialect : Dialect) {config : FuzzyConfig α μ}
    (written : Written known config.fields entries) (within : ∀ name ∈ fieldNames, name ∈ known) :
    decode? dialect (.record entries) = some config := by
  obtain ⟨slots, found, fits⟩ := written.slots? dialect fieldNames rfl (by decide) within
  rcases fits with _ | ⟨serving, _ | ⟨discovery, _ | ⟨abstention, _ | ⟨stale, _ | ⟨window, _ |
    ⟨rules, _ | _⟩⟩⟩⟩⟩⟩
  simp only [decode?, found, FieldForm.optional?_of_fits serving Node.uint8?_of_eq,
    FieldForm.optional?_of_fits discovery Node.uint8?_of_eq,
    FieldForm.optional?_of_fits abstention Node.scalar?_of_eq,
    FieldForm.optional?_of_fits stale
      (Node.nullable?_of_isOptionOf fun _ node same => Node.uint64?_of_eq node same),
    FieldForm.optional?_of_fits window Node.uint64?_of_eq,
    FieldForm.optional?_of_fits rules
      (Node.nullable?_of_isOptionOf (RuleBase.decode?_of_form dialect)),
    Option.bind_eq_bind, Option.bind_some]

end FuzzyConfig

end RuleBases

/-! ## Algorithms -/

namespace AlgorithmConfig

/-- The parameters as fields. -/
def parameters : AlgorithmConfig α → List (FieldForm α)
  | noOp => []
  | bestNeighbour hysteresis timeToTrigger =>
    [.may "hysteresis_db" usualHysteresis hysteresis (· = .float hysteresis),
      .may "time_to_trigger_ms" usualTimeToTrigger timeToTrigger
        (· = .natural timeToTrigger.toNat)]
  | offset servingThreshold neighbourOffset =>
    [.may "serving_cell_threshold" usualServingThreshold servingThreshold
        (· = .natural servingThreshold.toNat),
      .may "neighbour_cell_offset" usualNeighbourOffset neighbourOffset
        (· = .natural neighbourOffset.toNat)]
  | typeOne config => config.fields
  | typeTwo config => config.fields

/-- The tag and the parameters as fields. -/
def fields (algorithm : AlgorithmConfig α) : List (FieldForm α) :=
  .must "algorithm" (· = .text algorithm.name) :: algorithm.parameters

variable {known : List String} {entries : List (String × Node α)}

theorem written_encodeFields {more : List (FieldForm α)} (algorithm : AlgorithmConfig α)
    (rest : Written known more entries) :
    Written known (algorithm.fields ++ more) (algorithm.encodeFields ++ entries) := by
  cases algorithm with
  | noOp => exact .kept rfl rest
  | bestNeighbour _ _ | offset _ _ => exact .kept rfl (.kept rfl (.kept rfl rest))
  | typeOne config | typeTwo config => exact .kept rfl (config.written_encodeFields rest)

theorem decodeBestNeighbour?_of_written {hysteresis : α} {timeToTrigger : UInt32}
    (written : Written known (bestNeighbour hysteresis timeToTrigger).parameters entries)
    (within : ∀ name ∈ ["hysteresis_db", "time_to_trigger_ms"], name ∈ known) :
    decodeBestNeighbour? (.record entries) = some (.bestNeighbour hysteresis timeToTrigger) := by
  obtain ⟨slots, found, fits⟩ :=
    written.slots? .document ["hysteresis_db", "time_to_trigger_ms"] rfl (by decide) within
  rcases fits with _ | ⟨first, _ | ⟨second, _ | _⟩⟩
  simp only [decodeBestNeighbour?, found, FieldForm.optional?_of_fits first Node.scalar?_of_eq,
    FieldForm.optional?_of_fits second Node.uint32?_of_eq, Option.bind_eq_bind, Option.bind_some]

theorem decodeOffset?_of_written {servingThreshold neighbourOffset : Level}
    (written : Written known
      (offset servingThreshold neighbourOffset : AlgorithmConfig α).parameters entries)
    (within : ∀ name ∈ ["serving_cell_threshold", "neighbour_cell_offset"], name ∈ known) :
    decodeOffset? (.record entries) = some (.offset servingThreshold neighbourOffset) := by
  obtain ⟨slots, found, fits⟩ :=
    written.slots? .document ["serving_cell_threshold", "neighbour_cell_offset"] rfl (by decide)
      within
  rcases fits with _ | ⟨first, _ | ⟨second, _ | _⟩⟩
  simp only [decodeOffset?, found, FieldForm.optional?_of_fits first Node.uint8?_of_eq,
    FieldForm.optional?_of_fits second Node.uint8?_of_eq, Option.bind_eq_bind, Option.bind_some]

/-- Place of the name among those of all algorithms. -/
def place : AlgorithmConfig α → Nat
  | noOp => 0
  | bestNeighbour .. => 1
  | offset .. => 2
  | typeOne _ => 3
  | typeTwo _ => 4

theorem decode?_of_written (dialect : Dialect) {algorithm : AlgorithmConfig α}
    (written : Written known algorithm.fields entries)
    (within : ∀ name ∈ algorithm.fields.map FieldForm.name, name ∈ known) :
    decode? dialect (.record entries) = some algorithm := by
  have listed : variants.idxOf? algorithm.name = some algorithm.place := by
    cases algorithm <;> rfl
  have apart : "algorithm" ∉ algorithm.parameters.map FieldForm.name := by
    cases algorithm <;> simp [parameters, FuzzyConfig.fields, FieldForm.may]
  have tagWithin : "algorithm" ∈ known := within _ List.mem_cons_self
  obtain ⟨others, tagged, rest⟩ := written.tagged? dialect listed tagWithin apart
  have parametersWithin : ∀ name ∈ algorithm.parameters.map FieldForm.name, name ∈ known :=
    fun name member => within name (List.mem_cons_of_mem _ member)
  rw [decode?, tagged]
  cases algorithm with
  | noOp =>
      obtain ⟨slots, found, _⟩ := rest.slots? .document [] rfl (by decide) parametersWithin
      exact congrArg (Option.map fun _ => noOp) found
  | bestNeighbour _ _ => exact decodeBestNeighbour?_of_written rest parametersWithin
  | offset _ _ => exact decodeOffset?_of_written rest parametersWithin
  | typeOne _ =>
      exact congrArg (Option.map typeOne)
        (FuzzyConfig.decode?_of_written .document rest parametersWithin)
  | typeTwo _ =>
      exact congrArg (Option.map typeTwo)
        (FuzzyConfig.decode?_of_written .document rest parametersWithin)

end AlgorithmConfig

/-! ## Configurations -/

namespace EngineConfig

/-- The general settings as fields. -/
def settings (config : EngineConfig α) : List (FieldForm α) :=
  [.may "report_interval_ms" usualReportInterval config.reportIntervalMillis
      (· = .natural config.reportIntervalMillis.toNat),
    .may "log_level" .info config.logLevel (· = .text config.logLevel.name)]

/-- The tag, the parameters and the general settings as fields. -/
def fields (config : EngineConfig α) : List (FieldForm α) :=
  config.algorithm.fields ++ config.settings

/-- The node is a form of the configuration. -/
def Form (config : EngineConfig α) (node : Node α) : Prop :=
  IsRecord config.fields node

theorem form_encode (config : EngineConfig α) : config.Form config.encode :=
  ⟨_, rfl, config.algorithm.written_encodeFields (.kept rfl (.kept rfl .nil))⟩

/-- No field of an algorithm has the name of a general setting. -/
theorem notMem_settingNames {algorithm : AlgorithmConfig α} {field : FieldForm α}
    (member : field ∈ algorithm.fields) : field.name ∉ settingNames := by
  have apart : ∀ name ∈ algorithm.fields.map FieldForm.name, name ∉ settingNames := by
    cases algorithm <;>
      simp [AlgorithmConfig.fields, AlgorithmConfig.parameters, FuzzyConfig.fields, FieldForm.may,
        FieldForm.must, settingNames]
  exact apart _ (List.mem_map_of_mem member)

/-- The fields beside the general settings are those of the algorithm. -/
theorem fields_filter_algorithm (config : EngineConfig α) :
    config.fields.filter (fun field => !settingNames.contains field.name) =
      config.algorithm.fields := by
  have kept : config.algorithm.fields.filter (!settingNames.contains ·.name) =
      config.algorithm.fields :=
    List.filter_eq_self.mpr fun field member => by simpa using notMem_settingNames member
  rw [fields, List.filter_append, kept]
  exact List.append_nil _

/-- The field of a general setting is found among the settings. -/
theorem fields_filter_setting (config : EngineConfig α) {name : String}
    (setting : name ∈ settingNames) :
    config.fields.filter (·.name = name) = config.settings.filter (·.name = name) := by
  have dropped : config.algorithm.fields.filter (·.name = name) = [] :=
    List.filter_eq_nil_iff.mpr fun field member same =>
      notMem_settingNames member (of_decide_eq_true same ▸ setting)
  rw [fields, List.filter_append, dropped, List.nil_append]

section Settings

omit [Scalar α]

variable {known : List String} {fields : List (FieldForm α)} {entries : List (String × Node α)}

theorem setting?_of_written {τ : Type} {name : String} {usual value : τ}
    {Allows : Node α → Prop} {read? : FieldValue α → Option τ}
    (written : Written known fields entries)
    (alone : fields.filter (·.name = name) = [.may name usual value Allows])
    (within : name ∈ known) (reads : ∀ node, Allows node → read? (.ofNode node) = some value) :
    setting? (FieldValue.ofEntries entries) name usual read? = some value := by
  simp only [setting?, FieldValue.ofEntries, List.filter_map, Function.comp_def]
  rcases written.named alone within with ⟨absent, usual⟩ | ⟨node, present, allowed⟩
  · rw [absent]
    exact congrArg some (Eq.symm usual)
  · rw [present]
    exact reads node allowed

theorem parameters?_ofEntries (entries : List (String × Node α)) :
    parameters? (FieldValue.ofEntries entries) =
      some (.record (entries.filter fun entry => !settingNames.contains entry.1)) := by
  simp only [parameters?, FieldValue.ofEntries, List.filter_map, Function.comp_def, List.mapM_map]
  exact congrArg (Option.map Node.map) List.mapM_pure

theorem uint32?_of_eq {value : UInt32} (node : Node α) (same : node = .natural value.toNat) :
    (FieldValue.ofNode node).uint32? = some value := by
  rw [same]
  simp [FieldValue.ofNode, FieldValue.uint32?, value.toNat_lt]

theorem level?_of_eq {level : LogLevel} (node : Node α) (same : node = .text level.name) :
    (FieldValue.ofNode node).name?.bind LogLevel.ofName? = some level := by
  rw [same]
  exact level.ofName?_name

end Settings

theorem decode?_of_form (config : EngineConfig α) (node : Node α) (form : config.Form node) :
    decode? node = some config := by
  obtain ⟨entries, rfl, written⟩ := form
  have settingWithin : ∀ name ∈ settingNames, name ∈ config.fields.map FieldForm.name := by
    intro name setting
    rw [fields, List.map_append]
    exact List.mem_append_right _ setting
  have intervalName : "report_interval_ms" ∈ settingNames := List.mem_cons_self
  have levelName : "log_level" ∈ settingNames := List.mem_cons_of_mem _ List.mem_cons_self
  have interval := setting?_of_written written (config.fields_filter_setting intervalName)
    (settingWithin _ intervalName) uint32?_of_eq
  have level : setting? (FieldValue.ofEntries entries) "log_level" .info
      (fun field => field.name?.bind LogLevel.ofName?) = some config.logLevel :=
    setting?_of_written written (config.fields_filter_setting levelName)
      (settingWithin _ levelName) level?_of_eq
  -- the algorithm is read from what the settings leave over
  have parameters := written.filter (!settingNames.contains ·)
  rw [config.fields_filter_algorithm] at parameters
  have algorithm := AlgorithmConfig.decode?_of_written .document parameters (by
    intro name member
    rw [fields, List.map_append]
    exact List.mem_append_left _ member)
  rw [decode?, Node.fields?_record, Option.bind_some, ofFields?]
  simp only [interval, level, parameters?_ofEntries, algorithm, Option.bind_eq_bind,
    Option.bind_some]

/-- A configuration is read back from every form of it, the one written by `encode`
among them: settings and parameters of usual value may be left out wherever they stand,
and any fields of unknown names may be added to any of its records. -/
theorem every_form_reads_back (config : EngineConfig α) :
    config.Form config.encode ∧ decode? config.encode = some config ∧
      ∀ node, config.Form node → decode? node = some config :=
  ⟨config.form_encode, config.decode?_of_form _ config.form_encode, config.decode?_of_form⟩

section Example

/-- A bell of height one. -/
def bell : Membership Float :=
  .gaussian 1 (ofDecimal 2 1) 1

/-- The bell with a remark and without its height. -/
def bellNode : Node Float :=
  .record
    [("remark", .text "high"), ("kind", .text "gaussian"), ("mean", .float 1),
      ("sigma", .float (ofDecimal 2 1))]

theorem form_bellNode : bell.Form bellNode :=
  ⟨_, rfl, .added (by decide) (.kept rfl (.kept rfl (.kept rfl (.omitted rfl .nil))))⟩

/-- A system whose only term is the bell. -/
def system : Definition Float (Membership Float) :=
  ⟨[], ⟨"link", ⟨0, 1, 11⟩, [⟨"good", bell⟩]⟩, [⟨[], "good"⟩]⟩

/-- The system with a unit for its output. -/
def systemNode : Node Float :=
  .record
    [("inputs", .list []),
      ("output", .record
        [("name", .text "link"), ("unit", .null), ("domain", (⟨0, 1, 11⟩ : Domain Float).encode),
          ("terms", .list [.record [("name", .text "good"), ("membership", bellNode)]])]),
      ("rules", .list [.record [("antecedents", .list []), ("consequent", .text "good")]])]

theorem form_systemNode : system.Form systemNode := by
  have output : system.output.Form (.record
      [("name", .text "link"), ("unit", .null), ("domain", system.output.domain.encode),
        ("terms", .list [.record [("name", .text "good"), ("membership", bellNode)]])]) :=
    ⟨_, rfl, .kept rfl (.added (by decide) (.kept (Domain.form_encode _)
      (.kept ⟨_, rfl, .cons ⟨_, rfl, .kept rfl (.kept form_bellNode .nil)⟩ .nil⟩ .nil)))⟩
  have rules : Node.IsListOf Rule.Form system.rules
      (.list [.record [("antecedents", .list []), ("consequent", .text "good")]] : Node Float) :=
    ⟨_, rfl, .cons ⟨_, rfl, .kept ⟨_, rfl, .nil⟩ (.kept rfl .nil)⟩ .nil⟩
  exact ⟨_, rfl, .kept ⟨_, rfl, .nil⟩ (.kept output (.kept rules .nil))⟩

theorem every_form_reads_back_trial :
    let config : EngineConfig Float :=
      ⟨.typeOne ⟨20, 0, ofDecimal 75 2, none, 6, some ⟨system, system, system⟩⟩, 240, .info⟩
    let node : Node Float :=
      .record
        [("site", .text "north"), ("algorithm", .text "type1-fuzzy"),
          ("hysteresis_db", .float 2), ("serving_threshold", .natural 20),
          ("rule_base", .record
            [("serving_rlq", systemNode), ("neighbour_rlq", systemNode),
              ("trigger", systemNode)]),
          ("report_interval_ms", .natural 240)]
    config.Form node ∧ decode? node = some config := by
  intro config node
  have rules : (⟨system, system, system⟩ : RuleBase Float (Membership Float)).Form
      (.record
        [("serving_rlq", systemNode), ("neighbour_rlq", systemNode), ("trigger", systemNode)]) :=
    ⟨_, rfl, .kept form_systemNode (.kept form_systemNode (.kept form_systemNode .nil))⟩
  have form : config.Form node :=
    ⟨_, rfl, .added (by decide) (.kept rfl (.added (by decide) (.kept rfl (.omitted rfl
      (.omitted rfl (.omitted rfl (.omitted rfl (.kept ⟨nofun, rules⟩
        (.kept rfl (.omitted rfl .nil))))))))))⟩
  exact ⟨form, (every_form_reads_back config).2.2 node form⟩

end Example

end EngineConfig

end Handover
