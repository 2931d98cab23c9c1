import Handover.Fuzzy.TypeTwo

/-!
# Rule bases

A handover is judged by three chained systems.  Two turn the predicted quality
of a cell and its expected change into a radio link quality in `[0, 1]`, one for
the serving cell and one for a neighbour; the third turns these two link
qualities into the desirability of a handover, also in `[0, 1]`.

The built-in rule bases draw the same terms for both kinds of membership; a
footprint adds an uncertain width.
-/

namespace Handover.Inference

open Fuzzy Scalar

/-- Descriptions of the three systems. -/
structure RuleBase (α μ : Type) where
  /-- Link quality of the serving cell. -/
  servingQuality : Definition α μ
  /-- Link quality of a neighbour. -/
  neighbourQuality : Definition α μ
  /-- Desirability of a handover. -/
  trigger : Definition α μ
deriving BEq, Repr

/-- Names of the variables of the built-in rule bases. -/
def rsrqName : String :=
  "RSRQ"

/-- Name of the expected change of the quality. -/
def changeName : String :=
  "deltaRSRQ"

/-- Name of a link quality. -/
def qualityName : String :=
  "RLQ"

/-- Name of the link quality of the serving cell. -/
def servingQualityName : String :=
  "sRLQ"

/-- Name of the link quality of a neighbour. -/
def neighbourQualityName : String :=
  "nRLQ"

/-- Name of the desirability of a handover. -/
def triggerName : String :=
  "hT"

/-- Outline of a term. -/
inductive Outline where
  /-- A bell saturated below its mean. -/
  | low
  /-- A bell. -/
  | bell
  /-- A bell saturated above its mean. -/
  | high
deriving DecidableEq, Repr

/-- A term with the width of its bell and the uncertainty of that width. -/
structure TermSketch (α : Type) where
  /-- Name of the term. -/
  name : String
  /-- Its outline. -/
  outline : Outline
  /-- Its mean. -/
  mean : α
  /-- Width of the bell. -/
  sigma : α
  /-- Uncertainty of the width. -/
  spread : α

namespace TermSketch

variable {α : Type} [Scalar α]

/-- The term as an ordinary membership function of height one. -/
def shape (sketch : TermSketch α) : Membership α :=
  match sketch.outline with
  | .low => .lowShoulder sketch.mean sketch.sigma 1
  | .bell => .gaussian sketch.mean sketch.sigma 1
  | .high => .highShoulder sketch.mean sketch.sigma 1

/-- The term as a footprint of height one. -/
def footprint (sketch : TermSketch α) : Footprint α :=
  match sketch.outline with
  | .low => .lowShoulder sketch.mean sketch.sigma sketch.spread 1
  | .bell => .gaussian sketch.mean sketch.sigma sketch.spread 1
  | .high => .highShoulder sketch.mean sketch.sigma sketch.spread 1

end TermSketch

namespace BuiltIn

variable {α : Type} [Scalar α]

/-- Range of the signal quality. -/
def rsrqDomain : Domain α :=
  ⟨0, ofNat 34, 35⟩

/-- Range of the change of the signal quality. -/
def changeDomain : Domain α :=
  ⟨ofInt (-4), ofNat 4, 9⟩

/-- Range of link qualities and of the desirability. -/
def unitDomain : Domain α :=
  ⟨0, 1, 101⟩

/-- Terms of the quality of the serving cell. -/
def servingRsrqTerms : List (TermSketch α) :=
  [⟨"POOR", .low, ofNat 20, ofDecimal 15 1, ofDecimal 5 1⟩,
    ⟨"FAIR", .bell, ofNat 23, ofDecimal 15 1, ofDecimal 5 1⟩,
    ⟨"GOOD", .bell, ofNat 27, ofDecimal 15 1, ofDecimal 5 1⟩,
    ⟨"EXCELLENT", .high, ofNat 31, ofDecimal 15 1, ofDecimal 5 1⟩]

/-- Terms of the quality of a neighbour. -/
def neighbourRsrqTerms : List (TermSketch α) :=
  [⟨"POOR", .low, ofNat 17, 1, ofDecimal 5 1⟩,
    ⟨"FAIR", .bell, ofNat 20, 1, ofDecimal 5 1⟩,
    ⟨"GOOD", .bell, ofNat 23, 1, ofDecimal 5 1⟩,
    ⟨"EXCELLENT", .high, ofNat 26, 1, ofDecimal 5 1⟩]

/-- Terms of the change of the quality of the serving cell. -/
def servingChangeTerms : List (TermSketch α) :=
  [⟨"DEC", .low, ofInt (-4), ofNat 2, ofDecimal 25 2⟩,
    ⟨"INC", .high, ofNat 4, ofDecimal 15 1, ofDecimal 25 2⟩]

/-- Terms of the change of the quality of a neighbour. -/
def neighbourChangeTerms : List (TermSketch α) :=
  [⟨"DEC", .low, ofInt (-4), ofNat 2, ofDecimal 25 2⟩,
    ⟨"INC", .high, ofNat 4, ofNat 2, ofDecimal 25 2⟩]

/-- Terms of a link quality. -/
def qualityTerms : List (TermSketch α) :=
  [⟨"LOW", .low, 0, ofDecimal 2 1, ofDecimal 1 1⟩,
    ⟨"AVERAGE", .bell, ofDecimal 5 1, ofDecimal 1 1, ofDecimal 4 2⟩,
    ⟨"HIGH", .high, 1, ofDecimal 2 1, ofDecimal 1 1⟩]

/-- Terms of the desirability. -/
def triggerTerms : List (TermSketch α) :=
  [⟨"NO", .low, 0, ofDecimal 2 1, ofDecimal 1 1⟩,
    ⟨"MIDDLE", .bell, ofDecimal 5 1, ofDecimal 1 1, ofDecimal 4 2⟩,
    ⟨"YES", .high, 1, ofDecimal 2 1, ofDecimal 1 1⟩]

/-- Link quality for a term of the quality and one of its change. -/
def qualityRules : List Rule :=
  [("POOR", "DEC", "LOW"), ("POOR", "INC", "LOW"),
    ("FAIR", "DEC", "LOW"), ("FAIR", "INC", "AVERAGE"),
    ("GOOD", "DEC", "AVERAGE"), ("GOOD", "INC", "HIGH"),
    ("EXCELLENT", "DEC", "HIGH"), ("EXCELLENT", "INC", "HIGH")].map
    fun (rsrq, change, quality) => .ofPairs [(rsrqName, rsrq), (changeName, change)] quality

/-- Desirability for a link quality of the neighbour and one of the serving
cell. -/
def triggerRules : List Rule :=
  [("LOW", "LOW", "MIDDLE"), ("LOW", "AVERAGE", "NO"), ("LOW", "HIGH", "NO"),
    ("AVERAGE", "LOW", "YES"), ("AVERAGE", "AVERAGE", "MIDDLE"), ("AVERAGE", "HIGH", "NO"),
    ("HIGH", "LOW", "YES"), ("HIGH", "AVERAGE", "MIDDLE"), ("HIGH", "HIGH", "NO")].map
    fun (neighbour, serving, desirability) =>
      .ofPairs [(neighbourQualityName, neighbour), (servingQualityName, serving)] desirability

section Drawing

variable {μ : Type} (draw : TermSketch α → μ)

/-- A variable whose terms are drawn from sketches. -/
def variableOf (name : String) (domain : Domain α) (terms : List (TermSketch α)) :
    Variable α μ :=
  ⟨name, domain, terms.map fun sketch => ⟨sketch.name, draw sketch⟩⟩

/-- Link quality of a cell whose quality and change have the given terms. -/
def quality (rsrqTerms changeTerms : List (TermSketch α)) : Definition α μ where
  inputs :=
    [variableOf draw rsrqName rsrqDomain rsrqTerms,
      variableOf draw changeName changeDomain changeTerms]
  output := variableOf draw qualityName unitDomain qualityTerms
  rules := qualityRules

/-- Desirability of a handover. -/
def trigger : Definition α μ where
  inputs :=
    [variableOf draw servingQualityName unitDomain qualityTerms,
      variableOf draw neighbourQualityName unitDomain qualityTerms]
  output := variableOf draw triggerName unitDomain triggerTerms
  rules := triggerRules

/-- The built-in rule base, its terms drawn as told. -/
def ruleBase : RuleBase α μ where
  servingQuality := quality draw servingRsrqTerms servingChangeTerms
  neighbourQuality := quality draw neighbourRsrqTerms neighbourChangeTerms
  trigger := trigger draw

end Drawing

/-- The built-in rule base with ordinary membership functions. -/
def typeOne : RuleBase α (Membership α) :=
  ruleBase TermSketch.shape

/-- The built-in rule base with footprints. -/
def typeTwo : RuleBase α (Footprint α) :=
  ruleBase TermSketch.footprint

end BuiltIn

end Handover.Inference
