import Handover.Document.Yaml.Tree

/-!
# Repeated values

A name stands for the last value that was given it.  Names are numbered as the
text gives them, and a repetition refers to the number that its name has at that
place; where two values come to have the same number, it is the later one that
is repeated.  Putting values in the place of their repetitions is bounded: in
depth, and in number by the size of the text.
-/

namespace Handover.Document.Yaml

/-! ## Names -/

/-- The names given so far, with their numbers. -/
abbrev Names := List (String × Nat)

/-- Gives a name, which is given the number of names before it. -/
def bindName (name : String) : StateT Names Option Nat := fun names =>
  some (names.length, (name, names.length) :: names.filter fun (other, _) => other ≠ name)

/-- Gives the name of a value, if it has one. -/
def bindAnchor : Option String → StateT Names Option (Option Nat)
  | none => pure none
  | some name => some <$> bindName name

namespace Tree

mutual

/-- The tree with numbers for names; a name that is repeated has to be given
before. -/
def number : Tree String → StateT Names Option (Tree Nat)
  | repeated name => fun names => (names.lookup name).map fun target => (repeated target, names)
  | word anchor tag style text => do
    let anchor ← bindAnchor anchor
    return word anchor tag style text
  | list anchor tag items => do
    let anchor ← bindAnchor anchor
    return list anchor tag (← numberItems items)
  | map anchor tag entries => do
    let anchor ← bindAnchor anchor
    return map anchor tag (← numberEntries entries)

/-- The items with numbers for names. -/
def numberItems : List (Tree String) → StateT Names Option (List (Tree Nat))
  | [] => return []
  | item :: items => return (← item.number) :: (← numberItems items)

/-- The keys and values with numbers for names. -/
def numberEntries :
    List (Tree String × Tree String) → StateT Names Option (List (Tree Nat × Tree Nat))
  | [] => return []
  | (key, value) :: entries => return (← key.number, ← value.number) :: (← numberEntries entries)

end

/-! ## Values in the place of their repetitions -/

/-- The value itself, or the one that it repeats; the state is the number of
repetitions that are left. -/
def follow (targets : List (Nat × Tree Nat)) : Tree Nat → StateT Nat Option (Tree Nat)
  | repeated target => fun
    | 0 => none
    | left + 1 => (targets.lookup target).map (·, left)
  | tree => pure tree

/-- The tree without repetitions, at most `depth` collections deep. -/
def expand (targets : List (Nat × Tree Nat)) : Nat → Tree Nat → StateT Nat Option (Tree Empty)
  | depth, tree => do
    match ← follow targets tree, depth with
    | word _ tag style text, _ => return word none tag style text
    | list _ tag items, inner + 1 => return list none tag (← items.mapM (expand targets inner))
    | map _ tag entries, inner + 1 =>
      let expanded ← entries.mapM fun (key, value) => do
        return (← expand targets inner key, ← expand targets inner value)
      return map none tag expanded
    | _, _ => failure

/-- Most collections that may lie within each other. -/
def depthLimit : Nat :=
  128

/-- Most repetitions for each unit of the size of a text. -/
def repetitionLimit : Nat :=
  100

/-- The tree of a text without repetitions, if it stays within the limits. -/
def withoutRepetitions? (tree : Tree String) : Option (Tree Empty) := do
  let (numbered, _) ← tree.number []
  let (expanded, _) ←
    numbered.expand numbered.named.reverse depthLimit (repetitionLimit * tree.size)
  some expanded

end Tree

end Handover.Document.Yaml
