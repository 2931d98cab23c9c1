import Handover.Document.Yaml.Token

/-!
# Trees of a text

A document as it is written: words, collections, and repetitions of values that
were given a name.  The type of the names is left open, so that they can be
resolved step by step; a tree whose names have an empty type has no repetitions.
-/

namespace Handover.Document.Yaml

/-- A written value whose names are of type `ρ`. -/
inductive Tree (ρ : Type) where
  /-- The repetition of a named value. -/
  | repeated (target : ρ)
  /-- A word. -/
  | word (anchor : Option ρ) (tag : Option Tag) (style : Style) (text : List Char)
  /-- Values in order. -/
  | list (anchor : Option ρ) (tag : Option Tag) (items : List (Tree ρ))
  /-- Keys with values, in order. -/
  | map (anchor : Option ρ) (tag : Option Tag) (entries : List (Tree ρ × Tree ρ))

namespace Tree

variable {ρ : Type}

/-- A value that is left out. -/
def absent : Tree ρ :=
  word none none .plain []

mutual

/-- Size of a tree: a word and a repetition count once, a collection for its
beginning and its end. -/
def size : Tree ρ → Nat
  | repeated _ => 1
  | word .. => 1
  | list _ _ items => sizeOfItems items + 2
  | map _ _ entries => sizeOfEntries entries + 2

/-- Size of all values. -/
def sizeOfItems : List (Tree ρ) → Nat
  | [] => 0
  | item :: items => item.size + sizeOfItems items

/-- Size of all keys and values. -/
def sizeOfEntries : List (Tree ρ × Tree ρ) → Nat
  | [] => 0
  | (key, value) :: entries => key.size + value.size + sizeOfEntries entries

end

mutual

/-- The named values with their names, in the order of the text; what surrounds a
value comes before it. -/
def named : Tree ρ → List (ρ × Tree ρ)
  | repeated _ => []
  | word anchor tag style text => anchor.toList.map (·, word anchor tag style text)
  | list anchor tag items => anchor.toList.map (·, list anchor tag items) ++ namedItems items
  | map anchor tag entries => anchor.toList.map (·, map anchor tag entries) ++ namedEntries entries

/-- The named values in a list. -/
def namedItems : List (Tree ρ) → List (ρ × Tree ρ)
  | [] => []
  | item :: items => item.named ++ namedItems items

/-- The named values in a map. -/
def namedEntries : List (Tree ρ × Tree ρ) → List (ρ × Tree ρ)
  | [] => []
  | (key, value) :: entries => key.named ++ value.named ++ namedEntries entries

end

end Tree

end Handover.Document.Yaml
