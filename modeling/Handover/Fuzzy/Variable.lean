import Handover.Fuzzy.Footprint

/-!
# Linguistic variables

A variable has a name, a range and named terms.  Variables are generic in the
kind of membership that their terms carry: ordinary membership functions or
footprints of uncertainty.
-/

namespace Handover.Fuzzy

open Scalar

/-- A kind of membership `μ` that grades scalars `α` with degrees `δ`. -/
class Grading (μ : Type) (α : outParam Type) (δ : outParam Type) where
  /-- Degree of a value. -/
  degree : μ → α → δ
  /-- Checks the membership of a named term of a variable with a given
  range. -/
  validate : String → Domain α → μ → Except (FuzzyError α) Unit

instance {α : Type} [Scalar α] : Grading (Membership α) α α where
  degree := Membership.degree
  validate := fun term _ shape => shape.validate term

instance {α : Type} [Scalar α] : Grading (Footprint α) α (Interval α) where
  degree := Footprint.degree
  validate := fun term domain footprint => footprint.validate term domain.samples

/-- A named membership. -/
structure Term (μ : Type) where
  /-- Name of the term. -/
  name : String
  /-- Its membership. -/
  membership : μ
deriving BEq, Repr

/-- A linguistic variable whose terms carry memberships `μ`. -/
structure Variable (α μ : Type) where
  /-- Name of the variable. -/
  name : String
  /-- Its range. -/
  domain : Domain α
  /-- Its terms. -/
  terms : List (Term μ)
deriving BEq, Repr

/-- First name that occurs a second time. -/
def firstRepeat? (seen : List String) : List String → Option String
  | [] => none
  | name :: rest => if name ∈ seen then some name else firstRepeat? (name :: seen) rest

/-- Checks that no name occurs twice. -/
def checkUnique {α : Type} (names : List String) : Except (FuzzyError α) Unit :=
  match firstRepeat? [] names with
  | some name => .error (.duplicate name)
  | none => .ok ()

namespace Variable

variable {α μ δ : Type} [Scalar α] [Grading μ α δ]

/-- Place of the term with a given name. -/
def termIndex? (item : Variable α μ) (name : String) : Option Nat :=
  item.terms.findIdx? fun term => term.name == name

/-- Degree of a value in every term, the value being moved into the range
first. -/
def fuzzify? (item : Variable α μ) (value : α) : Option (List δ) :=
  (item.domain.clamp? value).map fun x =>
    item.terms.map fun term => Grading.degree term.membership x

/-- Checks the range, the term names and the memberships, in this order. -/
def validate (item : Variable α μ) : Except (FuzzyError α) Unit := do
  item.domain.validate item.name
  if item.terms.isEmpty then
    .error (.noTerms item.name)
  checkUnique (item.terms.map Term.name)
  item.terms.forM fun term => Grading.validate term.name item.domain term.membership

end Variable

end Handover.Fuzzy
