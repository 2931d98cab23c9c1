import Handover.Document.Node

/-!
# Records in documents

A record is a map from field names to values.  Fields may come in any order and
unknown ones are passed over, but a field must not occur twice.  A tagged record
also has a field that names its variant, and the variant decides which other
fields count.

Text documents allow a shorter form: a record may be the list of its values in
the order of declaration, and an index may stand for a name.  A tagged record
may always be a list that begins with the tag, and what stands under a tag is
always read like a text document.
-/

namespace Handover.Document

/-- Which forms of a record are understood. -/
structure Dialect where
  /-- Values may be given in order, and indices may stand for names. -/
  byPosition : Bool
deriving DecidableEq, Repr

namespace Dialect

/-- The dialect of text documents. -/
def document : Dialect :=
  ⟨true⟩

/-- The dialect of exchanged data. -/
def exchange : Dialect :=
  ⟨false⟩

end Dialect

namespace Record

variable {α : Type}

/-- What a key means among the given names: the place of a name, or nothing of
interest.  Keys other than texts and indices are refused. -/
def place? (dialect : Dialect) (names : List String) : Node α → Option (Option Nat)
  | .text name => some (names.idxOf? name)
  | .natural index =>
    if dialect.byPosition then some (if index < names.length then some index else none) else none
  | _ => none

/-- Puts a value into a free slot. -/
def fill? (slots : List (Option (Node α))) (place : Nat) (value : Node α) :
    Option (List (Option (Node α))) :=
  match slots[place]? with
  | some none => some (slots.set place (some value))
  | _ => none

/-- Distributes entries over slots. -/
def fillAll? (dialect : Dialect) (names : List String) :
    List (Node α × Node α) → List (Option (Node α)) → Option (List (Option (Node α)))
  | [], slots => some slots
  | (key, value) :: rest, slots =>
    match place? dialect names key with
    | none => none
    | some none => fillAll? dialect names rest slots
    | some (some place) =>
      match fill? slots place value with
      | none => none
      | some filled => fillAll? dialect names rest filled

/-- The values of the named fields of a record, in the order of the names. -/
def slots? (dialect : Dialect) (names : List String) :
    Node α → Option (List (Option (Node α)))
  | .map entries => fillAll? dialect names entries (names.map fun _ => none)
  | .list items =>
    if dialect.byPosition ∧ items.length ≤ names.length then
      some (items.map some ++ (names.drop items.length).map fun _ => none)
    else none
  | _ => none

/-- Reading of a field that has to be there. -/
def required? {τ : Type} (read : Node α → Option τ) : Option (Node α) → Option τ
  | none => none
  | some node => read node

/-- Reading of a field with a usual value. -/
def optional? {τ : Type} (usual : τ) (read : Node α → Option τ) : Option (Node α) → Option τ
  | none => some usual
  | some node => read node

/-- The entries whose key is not the given text, and the values under it. -/
def splitEntries (name : String) :
    List (Node α × Node α) → List (Node α × Node α) × List (Node α)
  | [] => ([], [])
  | (key, value) :: rest =>
    let (others, values) := splitEntries name rest
    if key.text? = some name then (others, value :: values) else ((key, value) :: others, values)

/-- The index of a variant, given by its name or the index itself. -/
def variantIndex? (dialect : Dialect) (variants : List String) : Node α → Option Nat
  | .text name => variants.idxOf? name
  | .natural index =>
    if dialect.byPosition ∧ index < variants.length then some index else none
  | _ => none

/-- The variant of a tagged record and the record without its tag, which comes
first in a list. -/
def tagged? (dialect : Dialect) (tag : String) (variants : List String) :
    Node α → Option (Nat × Node α)
  | .map entries =>
    match splitEntries tag entries with
    | (others, [variant]) =>
      (variantIndex? dialect variants variant).map fun index => (index, .map others)
    | _ => none
  | .list (variant :: items) =>
    (variantIndex? dialect variants variant).map fun index => (index, .list items)
  | _ => none

end Record

/-- Values `τ` that have a form in documents over the scalars `α`. -/
class Documented (α : outParam Type) (τ : Type) where
  /-- The form of a value. -/
  encode : τ → Node α
  /-- Reading of a form. -/
  decode? : Dialect → Node α → Option τ

end Handover.Document
