import Handover.Document.Record
import Handover.Fuzzy.TypeTwo

/-!
# Fuzzy systems in documents

The document form of membership functions, variables, rules and definitions.
-/

namespace Handover.Fuzzy

open Document Scalar

variable {α : Type} [Scalar α]

namespace Membership

/-- Tags of the shapes. -/
def kinds : List String :=
  ["gaussian", "low-shoulder", "high-shoulder", "triangular", "trapezoidal"]

/-- The form of a bell. -/
def encodeBell (kind : String) (mean sigma height : α) : Node α :=
  .record
    [("kind", .text kind), ("mean", .float mean), ("sigma", .float sigma),
      ("height", .float height)]

/-- The form of a shape. -/
def encode : Membership α → Node α
  | gaussian mean sigma height => encodeBell "gaussian" mean sigma height
  | lowShoulder mean sigma height => encodeBell "low-shoulder" mean sigma height
  | highShoulder mean sigma height => encodeBell "high-shoulder" mean sigma height
  | triangular left peak right =>
    .record
      [("kind", .text "triangular"), ("left", .float left), ("peak", .float peak),
        ("right", .float right)]
  | trapezoidal left leftTop rightTop right =>
    .record
      [("kind", .text "trapezoidal"), ("left", .float left), ("left_top", .float leftTop),
        ("right_top", .float rightTop), ("right", .float right)]

/-- Reading of a bell; its usual height is one. -/
def decodeBell? (shape : α → α → α → Membership α) (node : Node α) :
    Option (Membership α) := do
  match ← Record.slots? .document ["mean", "sigma", "height"] node with
  | [mean, sigma, height] =>
    let mean ← Record.required? Node.scalar? mean
    let sigma ← Record.required? Node.scalar? sigma
    let height ← Record.optional? 1 Node.scalar? height
    some (shape mean sigma height)
  | _ => none

/-- Reading of a triangle. -/
def decodeTriangle? (node : Node α) : Option (Membership α) := do
  match ← Record.slots? .document ["left", "peak", "right"] node with
  | [left, peak, right] =>
    let left ← Record.required? Node.scalar? left
    let peak ← Record.required? Node.scalar? peak
    let right ← Record.required? Node.scalar? right
    some (.triangular left peak right)
  | _ => none

/-- Reading of a trapezoid. -/
def decodeTrapezoid? (node : Node α) : Option (Membership α) := do
  match ← Record.slots? .document ["left", "left_top", "right_top", "right"] node with
  | [left, leftTop, rightTop, right] =>
    let left ← Record.required? Node.scalar? left
    let leftTop ← Record.required? Node.scalar? leftTop
    let rightTop ← Record.required? Node.scalar? rightTop
    let right ← Record.required? Node.scalar? right
    some (.trapezoidal left leftTop rightTop right)
  | _ => none

/-- Reading of a shape. -/
def decode? (dialect : Dialect) (node : Node α) : Option (Membership α) :=
  match Record.tagged? dialect "kind" kinds node with
  | some (0, fields) => decodeBell? .gaussian fields
  | some (1, fields) => decodeBell? .lowShoulder fields
  | some (2, fields) => decodeBell? .highShoulder fields
  | some (3, fields) => decodeTriangle? fields
  | some (4, fields) => decodeTrapezoid? fields
  | _ => none

instance : Documented α (Membership α) where
  encode := encode
  decode? := decode?

end Membership

namespace Footprint

/-- The form of a footprint. -/
def encode (footprint : Footprint α) : Node α :=
  .record [("lower", footprint.lower.encode), ("upper", footprint.upper.encode)]

/-- Reading of a footprint. -/
def decode? (dialect : Dialect) (node : Node α) : Option (Footprint α) := do
  match ← Record.slots? dialect ["lower", "upper"] node with
  | [lower, upper] =>
    let lower ← Record.required? (Membership.decode? dialect) lower
    let upper ← Record.required? (Membership.decode? dialect) upper
    some ⟨lower, upper⟩
  | _ => none

instance : Documented α (Footprint α) where
  encode := encode
  decode? := decode?

end Footprint

namespace Domain

/-- The form of a range. -/
def encode (domain : Domain α) : Node α :=
  .record
    [("min", .float domain.min), ("max", .float domain.max),
      ("points", .natural domain.points.toNat)]

/-- Reading of a range. -/
def decode? (dialect : Dialect) (node : Node α) : Option (Domain α) := do
  match ← Record.slots? dialect ["min", "max", "points"] node with
  | [min, max, points] =>
    let min ← Record.required? Node.scalar? min
    let max ← Record.required? Node.scalar? max
    let points ← Record.required? Node.uint64? points
    some ⟨min, max, points⟩
  | _ => none

end Domain

section Generic

variable {μ : Type} [Documented α μ]

namespace Term

/-- The form of a term. -/
def encode (term : Term μ) : Node α :=
  .record [("name", .text term.name), ("membership", Documented.encode term.membership)]

/-- Reading of a term. -/
def decode? (dialect : Dialect) (node : Node α) : Option (Term μ) := do
  match ← Record.slots? dialect ["name", "membership"] node with
  | [name, membership] =>
    let name ← Record.required? Node.text? name
    let membership ← Record.required? (Documented.decode? dialect) membership
    some ⟨name, membership⟩
  | _ => none

end Term

namespace Variable

/-- The form of a variable. -/
def encode (item : Variable α μ) : Node α :=
  .record
    [("name", .text item.name), ("domain", item.domain.encode),
      ("terms", .list (item.terms.map Term.encode))]

/-- Reading of a variable. -/
def decode? (dialect : Dialect) (node : Node α) : Option (Variable α μ) := do
  match ← Record.slots? dialect ["name", "domain", "terms"] node with
  | [name, domain, terms] =>
    let name ← Record.required? Node.text? name
    let domain ← Record.required? (Domain.decode? dialect) domain
    let terms ← Record.required? (Node.listOf? (Term.decode? dialect)) terms
    some ⟨name, domain, terms⟩
  | _ => none

end Variable

end Generic

namespace Clause

/-- The form of a condition. -/
def encode (clause : Clause) : Node α :=
  .record [("variable", .text clause.variableName), ("term", .text clause.term)]

/-- Reading of a condition. -/
def decode? (dialect : Dialect) (node : Node α) : Option Clause := do
  match ← Record.slots? dialect ["variable", "term"] node with
  | [variableName, term] =>
    let variableName ← Record.required? Node.text? variableName
    let term ← Record.required? Node.text? term
    some ⟨variableName, term⟩
  | _ => none

end Clause

namespace Rule

/-- The form of a rule. -/
def encode (rule : Rule) : Node α :=
  .record
    [("antecedents", .list (rule.antecedents.map Clause.encode)),
      ("consequent", .text rule.consequent)]

/-- Reading of a rule. -/
def decode? (dialect : Dialect) (node : Node α) : Option Rule := do
  match ← Record.slots? dialect ["antecedents", "consequent"] node with
  | [antecedents, consequent] =>
    let antecedents ← Record.required? (Node.listOf? (Clause.decode? dialect)) antecedents
    let consequent ← Record.required? Node.text? consequent
    some ⟨antecedents, consequent⟩
  | _ => none

end Rule

namespace Definition

variable {μ : Type} [Documented α μ]

/-- The form of a definition. -/
def encode (definition : Definition α μ) : Node α :=
  .record
    [("inputs", .list (definition.inputs.map Variable.encode)),
      ("output", definition.output.encode),
      ("rules", .list (definition.rules.map Rule.encode))]

/-- Reading of a definition. -/
def decode? (dialect : Dialect) (node : Node α) : Option (Definition α μ) := do
  match ← Record.slots? dialect ["inputs", "output", "rules"] node with
  | [inputs, output, rules] =>
    let inputs ← Record.required? (Node.listOf? (Variable.decode? dialect)) inputs
    let output ← Record.required? (Variable.decode? dialect) output
    let rules ← Record.required? (Node.listOf? (Rule.decode? dialect)) rules
    some ⟨inputs, output, rules⟩
  | _ => none

end Definition

end Handover.Fuzzy
