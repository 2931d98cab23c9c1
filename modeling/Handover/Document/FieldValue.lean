import Handover.Document.Node

/-!
# Values of fields

A named value of a document by what a field of each kind makes of it.  In a text
one spelling may serve fields of several kinds, so that which value it stands
for is only decided by the field.
-/

namespace Handover.Document

/-- A value as the fields of each kind read it. -/
structure FieldValue (α : Type) where
  /-- What a field for a natural number reads. -/
  natural? : Option Nat
  /-- What a field for one of several names reads. -/
  name? : Option String
  /-- What every other field reads. -/
  node? : Option (Node α)

namespace FieldValue

variable {α : Type}

/-- Reading of a 32-bit number. -/
def uint32? (field : FieldValue α) : Option UInt32 :=
  field.natural?.bind fun value => if value < UInt32.size then some (UInt32.ofNat value) else none

/-- A value that is the same for all fields. -/
def ofNode (node : Node α) : FieldValue α where
  natural? := match node with
    | .natural value => some value
    | _ => none
  name? := node.text?
  node? := some node

end FieldValue

/-- The fields of a map with texts as keys. -/
def Node.fields? {α : Type} : Node α → Option (List (String × FieldValue α))
  | .map entries => entries.mapM fun (key, value) => key.text?.map (·, .ofNode value)
  | _ => none

end Handover.Document
