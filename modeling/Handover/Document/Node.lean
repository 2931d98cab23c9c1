import Handover.Numeric.Scalar

/-!
# Document trees

Configurations are read from and written to trees of values, so that the text
format in which a tree is stored does not matter.  A number written without a
point is a whole number and is as good where a scalar is expected; the converse
does not hold.
-/

namespace Handover.Document

/-- A value in a document over the scalars `α`. -/
inductive Node (α : Type) where
  /-- No value. -/
  | null
  /-- A truth value. -/
  | bool (value : Bool)
  /-- A whole number without a sign. -/
  | natural (value : Nat)
  /-- A whole number with a minus sign. -/
  | negative (magnitude : Nat)
  /-- A number with a point. -/
  | float (value : α)
  /-- A text. -/
  | text (value : String)
  /-- Values in order. -/
  | list (items : List (Node α))
  /-- Keys with values, in order. -/
  | map (entries : List (Node α × Node α))
deriving Inhabited

namespace Node

variable {α : Type}

/-- A map with texts as keys. -/
def record (fields : List (String × Node α)) : Node α :=
  .map (fields.map fun (name, value) => (.text name, value))

/-- Reading of a scalar. -/
def scalar? [Scalar α] : Node α → Option α
  | natural value => some (Scalar.ofNat value)
  | negative magnitude => some (Scalar.ofInt (-magnitude))
  | float value => some value
  | _ => none

/-- Reading of a text. -/
def text? : Node α → Option String
  | text value => some value
  | _ => none

/-- Reading of a natural number below a bound. -/
def natBelow? (bound : Nat) : Node α → Option Nat
  | natural value => if value < bound then some value else none
  | negative 0 => if 0 < bound then some 0 else none
  | _ => none

/-- Reading of a byte. -/
def uint8? (node : Node α) : Option UInt8 :=
  (node.natBelow? UInt8.size).map UInt8.ofNat

/-- Reading of a 32-bit number. -/
def uint32? (node : Node α) : Option UInt32 :=
  (node.natBelow? UInt32.size).map UInt32.ofNat

/-- Reading of a 64-bit number. -/
def uint64? (node : Node α) : Option UInt64 :=
  (node.natBelow? UInt64.size).map UInt64.ofNat

/-- Reading of the items of a list, all in the same way. -/
def listOf? {τ : Type} (read : Node α → Option τ) : Node α → Option (List τ)
  | list items => items.mapM read
  | _ => none

/-- Reading of something that may be absent. -/
def nullable? {τ : Type} (read : Node α → Option τ) : Node α → Option (Option τ)
  | null => some none
  | node => (read node).map some

/-- The null value for something absent. -/
def ofOption {τ : Type} (write : τ → Node α) : Option τ → Node α
  | none => null
  | some value => write value

end Node

end Handover.Document
