import Handover.Document.FieldValue
import Handover.Document.Yaml.Grammar
import Handover.Document.Yaml.Layout
import Handover.Document.Yaml.Repetition
import Handover.Document.Yaml.Value

/-!
# Reading documents

A YAML text holds one document, whose value is a map.  Its keys are texts
however they are spelled; how its values are spelled decides what each kind of
field reads in them.
-/

namespace Handover.Document.Yaml

namespace Tree

/-- The type is a private one. -/
def isPrivate (tag : Option Tag) : Bool :=
  (tag.bind Tag.privateName?).isSome

mutual

/-- The value of a tree; one of a private type has none. -/
def node? : Tree Empty → Option (Node Float)
  | word _ tag style text => wordValue? tag (style = .plain) text
  | list _ tag items => if isPrivate tag then none else (nodes? items).map .list
  | map _ tag entries => if isPrivate tag then none else (entries? entries).map .map

/-- The values of items. -/
def nodes? : List (Tree Empty) → Option (List (Node Float))
  | [] => some []
  | item :: items => do
    let node ← item.node?
    let nodes ← nodes? items
    some (node :: nodes)

/-- The values of keys and what stands under them. -/
def entries? : List (Tree Empty × Tree Empty) → Option (List (Node Float × Node Float))
  | [] => some []
  | (key, value) :: entries => do
    let key ← key.node?
    let value ← value.node?
    let others ← entries? entries
    some ((key, value) :: others)

end

/-- What a field for a natural number reads: a plain word whatever its type is, or
the lines of a literal one that is typed as a whole number. -/
def natural? : Tree Empty → Option Nat
  | word _ tag style text =>
    if style = .plain || (style = .literal && tag = some (.common "int")) then Yaml.natural? text
    else none
  | _ => none

/-- What a field for one of several names reads: a word, or a private type with
nothing behind it. -/
def name? : Tree Empty → Option String
  | word _ tag style text =>
    match tag.bind Tag.privateName? with
    | none => some (String.ofList text)
    | some name => if style = .plain && String.ofList text ∈ nullWords then some name else none
  | _ => none

/-- The text of a word, whatever its type is. -/
def text? : Tree Empty → Option String
  | word _ _ _ text => some (String.ofList text)
  | _ => none

/-- A value as the fields of each kind read it. -/
def field (tree : Tree Empty) : FieldValue Float :=
  ⟨tree.natural?, tree.name?, tree.node?⟩

/-- The fields of a map. -/
def fields? : Tree Empty → Option (List (String × FieldValue Float))
  | map _ _ entries => entries.mapM fun (key, value) => key.text?.map (·, value.field)
  | _ => none

end Tree

/-- Reads the fields of the only document of a text. -/
def read? (text : String) : Option (List (String × FieldValue Float)) :=
  if text.toList.all isAllowed then do
    let tree ← Tree.ofTokens? (← tokens? text.toList)
    (← tree.withoutRepetitions?).fields?
  else none

end Handover.Document.Yaml
