import Handover.Fuzzy.Document
import Handover.Proofs.Document.Record

/-!
# Ways to write fuzzy systems

The forms that a membership function, a variable, a rule or a definition may take in a
document: every record in it may leave out a height of one and hold fields that are not
its own.  Whatever is written is one of its forms, and every form reads as what was
written.
-/

namespace Handover.Fuzzy

open Document Scalar

variable {α : Type} [Scalar α]

/-- Values that may be written in several forms. -/
class Varied (α : outParam Type) (τ : Type) [Documented α τ] where
  /-- The node is a form of the value. -/
  Form : τ → Node α → Prop
  form_encode : ∀ value, Form value (Documented.encode value)
  decode?_of_form : ∀ dialect value node, Form value node →
    Documented.decode? dialect node = some value

/-! ## Membership functions -/

namespace Membership

/-- Tag of a shape. -/
def kind : Membership α → String
  | gaussian _ _ _ => "gaussian"
  | lowShoulder _ _ _ => "low-shoulder"
  | highShoulder _ _ _ => "high-shoulder"
  | triangular _ _ _ => "triangular"
  | trapezoidal _ _ _ _ => "trapezoidal"

/-- A parameter of a shape. -/
def parameter (name : String) (value : α) : FieldForm α :=
  .must name (· = .float value)

/-- The parameters of a bell. -/
def bellParameters (mean sigma height : α) : List (FieldForm α) :=
  [parameter "mean" mean, parameter "sigma" sigma, .may "height" 1 height (· = .float height)]

/-- The parameters of a shape. -/
def parameters : Membership α → List (FieldForm α)
  | gaussian mean sigma height => bellParameters mean sigma height
  | lowShoulder mean sigma height => bellParameters mean sigma height
  | highShoulder mean sigma height => bellParameters mean sigma height
  | triangular left peak right =>
    [parameter "left" left, parameter "peak" peak, parameter "right" right]
  | trapezoidal left leftTop rightTop right =>
    [parameter "left" left, parameter "left_top" leftTop, parameter "right_top" rightTop,
      parameter "right" right]

/-- The fields of a shape. -/
def fields (shape : Membership α) : List (FieldForm α) :=
  .must "kind" (· = .text shape.kind) :: shape.parameters

/-- The node is a form of the shape. -/
def Form (shape : Membership α) (node : Node α) : Prop :=
  IsRecord shape.fields node

theorem form_encode (shape : Membership α) : shape.Form shape.encode := by
  cases shape with
  | gaussian _ _ _ | lowShoulder _ _ _ | highShoulder _ _ _ | triangular _ _ _ =>
      exact ⟨_, rfl, .kept rfl (.kept rfl (.kept rfl (.kept rfl .nil)))⟩
  | trapezoidal _ _ _ _ =>
      exact ⟨_, rfl, .kept rfl (.kept rfl (.kept rfl (.kept rfl (.kept rfl .nil))))⟩

theorem required?_parameter {name : String} {value : α} {slot : Option (Node α)}
    (fits : (parameter name value).Fits slot) :
    Record.required? Node.scalar? slot = some value :=
  FieldForm.required?_of_fits fits Node.scalar?_of_eq

section Parameters

variable {known : List String} {entries : List (String × Node α)}

theorem decodeBell?_of_written (shape : α → α → α → Membership α) {mean sigma height : α}
    (written : Written known (bellParameters mean sigma height) entries)
    (within : ∀ name ∈ ["mean", "sigma", "height"], name ∈ known) :
    decodeBell? shape (.record entries) = some (shape mean sigma height) := by
  obtain ⟨slots, found, fits⟩ :=
    written.slots? .document ["mean", "sigma", "height"] rfl (by decide) within
  rcases fits with _ | ⟨first, _ | ⟨second, _ | ⟨third, _ | _⟩⟩⟩
  simp only [decodeBell?, found, required?_parameter first, required?_parameter second,
    FieldForm.optional?_of_fits third Node.scalar?_of_eq, Option.bind_eq_bind, Option.bind_some]

theorem decodeTriangle?_of_written {left peak right : α}
    (written : Written known (triangular left peak right).parameters entries)
    (within : ∀ name ∈ ["left", "peak", "right"], name ∈ known) :
    decodeTriangle? (.record entries) = some (.triangular left peak right) := by
  obtain ⟨slots, found, fits⟩ :=
    written.slots? .document ["left", "peak", "right"] rfl (by decide) within
  rcases fits with _ | ⟨first, _ | ⟨second, _ | ⟨third, _ | _⟩⟩⟩
  simp only [decodeTriangle?, found, required?_parameter first, required?_parameter second,
    required?_parameter third, Option.bind_eq_bind, Option.bind_some]

theorem decodeTrapezoid?_of_written {left leftTop rightTop right : α}
    (written : Written known (trapezoidal left leftTop rightTop right).parameters entries)
    (within : ∀ name ∈ ["left", "left_top", "right_top", "right"], name ∈ known) :
    decodeTrapezoid? (.record entries) = some (.trapezoidal left leftTop rightTop right) := by
  obtain ⟨slots, found, fits⟩ :=
    written.slots? .document ["left", "left_top", "right_top", "right"] rfl (by decide) within
  rcases fits with _ | ⟨first, _ | ⟨second, _ | ⟨third, _ | ⟨fourth, _ | _⟩⟩⟩⟩
  simp only [decodeTrapezoid?, found, required?_parameter first, required?_parameter second,
    required?_parameter third, required?_parameter fourth, Option.bind_eq_bind, Option.bind_some]

end Parameters

/-- Place of the tag among those of all shapes. -/
def place : Membership α → Nat
  | gaussian _ _ _ => 0
  | lowShoulder _ _ _ => 1
  | highShoulder _ _ _ => 2
  | triangular _ _ _ => 3
  | trapezoidal _ _ _ _ => 4

theorem tagged?_of_form (dialect : Dialect) {shape : Membership α} {node : Node α}
    (form : shape.Form node) :
    ∃ others, Record.tagged? dialect "kind" kinds node = some (shape.place, .record others) ∧
      Written (shape.fields.map FieldForm.name) shape.parameters others := by
  obtain ⟨entries, rfl, written⟩ := form
  have listed : kinds.idxOf? shape.kind = some shape.place := by
    cases shape <;> rfl
  have apart : "kind" ∉ shape.parameters.map FieldForm.name := by
    cases shape <;> simp [parameters, bellParameters, parameter, FieldForm.must, FieldForm.may]
  exact written.tagged? dialect listed List.mem_cons_self apart

theorem decode?_of_form (dialect : Dialect) (shape : Membership α) (node : Node α)
    (form : shape.Form node) : decode? dialect node = some shape := by
  obtain ⟨others, tagged, written⟩ := tagged?_of_form dialect form
  have within : ∀ name ∈ shape.parameters.map FieldForm.name,
      name ∈ shape.fields.map FieldForm.name :=
    fun name member => List.mem_cons_of_mem _ member
  rw [decode?, tagged]
  cases shape with
  | gaussian _ _ _ => exact decodeBell?_of_written .gaussian written within
  | lowShoulder _ _ _ => exact decodeBell?_of_written .lowShoulder written within
  | highShoulder _ _ _ => exact decodeBell?_of_written .highShoulder written within
  | triangular _ _ _ => exact decodeTriangle?_of_written written within
  | trapezoidal _ _ _ _ => exact decodeTrapezoid?_of_written written within

instance : Varied α (Membership α) where
  Form := Form
  form_encode := form_encode
  decode?_of_form := decode?_of_form

end Membership

/-! ## Footprints -/

namespace Footprint

/-- The node is a form of the footprint. -/
def Form (footprint : Footprint α) (node : Node α) : Prop :=
  IsRecord [.must "lower" footprint.lower.Form, .must "upper" footprint.upper.Form] node

theorem form_encode (footprint : Footprint α) : footprint.Form footprint.encode :=
  ⟨_, rfl, .kept footprint.lower.form_encode (.kept footprint.upper.form_encode .nil)⟩

theorem decode?_of_form (dialect : Dialect) (footprint : Footprint α) (node : Node α)
    (form : footprint.Form node) : decode? dialect node = some footprint := by
  obtain ⟨slots, found, fits⟩ := form.slots? dialect ["lower", "upper"] rfl (by decide)
  rcases fits with _ | ⟨lower, _ | ⟨upper, _ | _⟩⟩
  have reads := Membership.decode?_of_form (α := α) dialect
  simp only [decode?, found, FieldForm.required?_of_fits lower (reads _),
    FieldForm.required?_of_fits upper (reads _), Option.bind_eq_bind, Option.bind_some]

instance : Varied α (Footprint α) where
  Form := Form
  form_encode := form_encode
  decode?_of_form := decode?_of_form

end Footprint

/-! ## Variables -/

namespace Domain

/-- The node is a form of the range. -/
def Form (domain : Domain α) (node : Node α) : Prop :=
  IsRecord
    [.must "min" (· = .float domain.min), .must "max" (· = .float domain.max),
      .must "points" (· = .natural domain.points.toNat)] node

omit [Scalar α] in
theorem form_encode (domain : Domain α) : domain.Form domain.encode :=
  ⟨_, rfl, .kept rfl (.kept rfl (.kept rfl .nil))⟩

theorem decode?_of_form (dialect : Dialect) (domain : Domain α) (node : Node α)
    (form : domain.Form node) : decode? dialect node = some domain := by
  obtain ⟨slots, found, fits⟩ := form.slots? dialect ["min", "max", "points"] rfl (by decide)
  rcases fits with _ | ⟨min, _ | ⟨max, _ | ⟨points, _ | _⟩⟩⟩
  simp only [decode?, found, FieldForm.required?_of_fits min Node.scalar?_of_eq,
    FieldForm.required?_of_fits max Node.scalar?_of_eq,
    FieldForm.required?_of_fits points Node.uint64?_of_eq, Option.bind_eq_bind, Option.bind_some]

end Domain

section Generic

variable {μ : Type} [Documented α μ] [Varied α μ]

namespace Term

/-- The node is a form of the term. -/
def Form (term : Term μ) (node : Node α) : Prop :=
  IsRecord
    [.must "name" (· = .text term.name), .must "membership" (Varied.Form term.membership)] node

omit [Scalar α] in
theorem form_encode (term : Term μ) : term.Form term.encode :=
  ⟨_, rfl, .kept rfl (.kept (Varied.form_encode term.membership) .nil)⟩

omit [Scalar α] in
theorem decode?_of_form (dialect : Dialect) (term : Term μ) (node : Node α)
    (form : term.Form node) : decode? dialect node = some term := by
  obtain ⟨slots, found, fits⟩ := form.slots? dialect ["name", "membership"] rfl (by decide)
  rcases fits with _ | ⟨name, _ | ⟨membership, _ | _⟩⟩
  simp only [decode?, found, FieldForm.required?_of_fits name Node.text?_of_eq,
    FieldForm.required?_of_fits membership (Varied.decode?_of_form dialect _), Option.bind_eq_bind,
    Option.bind_some]

end Term

namespace Variable

/-- The node is a form of the variable. -/
def Form (item : Variable α μ) (node : Node α) : Prop :=
  IsRecord
    [.must "name" (· = .text item.name), .must "domain" item.domain.Form,
      .must "terms" (Node.IsListOf Term.Form item.terms)] node

omit [Scalar α] in
theorem form_encode (item : Variable α μ) : item.Form item.encode :=
  ⟨_, rfl, .kept rfl (.kept item.domain.form_encode
    (.kept (Node.isListOf_map Term.form_encode item.terms) .nil))⟩

theorem decode?_of_form (dialect : Dialect) (item : Variable α μ) (node : Node α)
    (form : item.Form node) : decode? dialect node = some item := by
  obtain ⟨slots, found, fits⟩ := form.slots? dialect ["name", "domain", "terms"] rfl (by decide)
  rcases fits with _ | ⟨name, _ | ⟨domain, _ | ⟨terms, _ | _⟩⟩⟩
  simp only [decode?, found, FieldForm.required?_of_fits name Node.text?_of_eq,
    FieldForm.required?_of_fits domain (Domain.decode?_of_form dialect _),
    FieldForm.required?_of_fits terms (Node.listOf?_of_isListOf (Term.decode?_of_form dialect)),
    Option.bind_eq_bind, Option.bind_some]

end Variable

end Generic

/-! ## Rules -/

namespace Clause

/-- The node is a form of the condition. -/
def Form (clause : Clause) (node : Node α) : Prop :=
  IsRecord
    [.must "variable" (· = .text clause.variableName), .must "term" (· = .text clause.term)] node

omit [Scalar α] in
theorem form_encode (clause : Clause) : clause.Form (clause.encode : Node α) :=
  ⟨_, rfl, .kept rfl (.kept rfl .nil)⟩

omit [Scalar α] in
theorem decode?_of_form (dialect : Dialect) (clause : Clause) (node : Node α)
    (form : clause.Form node) : decode? dialect node = some clause := by
  obtain ⟨slots, found, fits⟩ := form.slots? dialect ["variable", "term"] rfl (by decide)
  rcases fits with _ | ⟨variableName, _ | ⟨term, _ | _⟩⟩
  simp only [decode?, found, FieldForm.required?_of_fits variableName Node.text?_of_eq,
    FieldForm.required?_of_fits term Node.text?_of_eq, Option.bind_eq_bind, Option.bind_some]

end Clause

namespace Rule

/-- The node is a form of the rule. -/
def Form (rule : Rule) (node : Node α) : Prop :=
  IsRecord
    [.must "antecedents" (Node.IsListOf Clause.Form rule.antecedents),
      .must "consequent" (· = .text rule.consequent)] node

omit [Scalar α] in
theorem form_encode (rule : Rule) : rule.Form (rule.encode : Node α) :=
  ⟨_, rfl, .kept (Node.isListOf_map Clause.form_encode rule.antecedents) (.kept rfl .nil)⟩

omit [Scalar α] in
theorem decode?_of_form (dialect : Dialect) (rule : Rule) (node : Node α)
    (form : rule.Form node) : decode? dialect node = some rule := by
  obtain ⟨slots, found, fits⟩ := form.slots? dialect ["antecedents", "consequent"] rfl (by decide)
  rcases fits with _ | ⟨antecedents, _ | ⟨consequent, _ | _⟩⟩
  simp only [decode?, found,
    FieldForm.required?_of_fits antecedents
      (Node.listOf?_of_isListOf (Clause.decode?_of_form dialect)),
    FieldForm.required?_of_fits consequent Node.text?_of_eq, Option.bind_eq_bind, Option.bind_some]

end Rule

/-! ## Definitions -/

namespace Definition

variable {μ : Type} [Documented α μ] [Varied α μ]

/-- The node is a form of the definition. -/
def Form (definition : Definition α μ) (node : Node α) : Prop :=
  IsRecord
    [.must "inputs" (Node.IsListOf Variable.Form definition.inputs),
      .must "output" definition.output.Form,
      .must "rules" (Node.IsListOf Rule.Form definition.rules)] node

omit [Scalar α] in
theorem form_encode (definition : Definition α μ) : definition.Form definition.encode :=
  ⟨_, rfl, .kept (Node.isListOf_map Variable.form_encode definition.inputs)
    (.kept definition.output.form_encode
      (.kept (Node.isListOf_map Rule.form_encode definition.rules) .nil))⟩

theorem decode?_of_form (dialect : Dialect) (definition : Definition α μ) (node : Node α)
    (form : definition.Form node) : decode? dialect node = some definition := by
  obtain ⟨slots, found, fits⟩ :=
    form.slots? dialect ["inputs", "output", "rules"] rfl (by decide)
  rcases fits with _ | ⟨inputs, _ | ⟨output, _ | ⟨rules, _ | _⟩⟩⟩
  simp only [decode?, found,
    FieldForm.required?_of_fits inputs
      (Node.listOf?_of_isListOf (Variable.decode?_of_form dialect)),
    FieldForm.required?_of_fits output (Variable.decode?_of_form dialect _),
    FieldForm.required?_of_fits rules (Node.listOf?_of_isListOf (Rule.decode?_of_form dialect)),
    Option.bind_eq_bind, Option.bind_some]

end Definition

end Handover.Fuzzy
