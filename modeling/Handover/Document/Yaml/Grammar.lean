import Handover.Document.Yaml.Tree

/-!
# Trees from tokens

How tokens make up the tree of a document.  Every function reads a part of the
tree from the front of the tokens and returns the tokens behind it; its fuel
bounds the number of steps into the tree and along it, each of which takes a
token.
-/

namespace Handover.Document.Yaml

/-- What stands before a value: a name for it, and its type. -/
structure Properties where
  /-- The name. -/
  anchor : Option String
  /-- The type. -/
  tag : Option Tag

namespace Properties

/-- A property stands before the value. -/
def isGiven (properties : Properties) : Bool :=
  properties.anchor.isSome || properties.tag.isSome

/-- Reads a name and a type, in either order. -/
def read? (handles : List (Handle × Tag)) : List Token → Option (Properties × List Token)
  | .anchor name :: .tag mark :: rest =>
    (Directive.tag? handles mark).map fun tag => (⟨some name, some tag⟩, rest)
  | .tag mark :: .anchor name :: rest =>
    (Directive.tag? handles mark).map fun tag => (⟨some name, some tag⟩, rest)
  | .tag mark :: rest => (Directive.tag? handles mark).map fun tag => (⟨none, some tag⟩, rest)
  | .anchor name :: rest => some (⟨some name, none⟩, rest)
  | rest => some (⟨none, none⟩, rest)

end Properties

namespace Tree

/-- Reads a value, unless one of the tokens that may follow it comes next. -/
def optional? (ends : List Token) (read? : List Token → Option (Tree String × List Token))
    (tokens : List Token) : Option (Tree String × List Token) :=
  if tokens.head?.any ends.contains then some (absent, tokens) else read? tokens

/-- Reads the value behind a colon, if there is one. -/
def valueOf? (ends : List Token) (read? : List Token → Option (Tree String × List Token)) :
    List Token → Option (Tree String × List Token)
  | .value :: rest => optional? ends read? rest
  | tokens => some (absent, tokens)

/-- Tokens behind a key or a value laid out by indentation. -/
def blockEnds : List Token :=
  [.key, .value, .blockEnd]

mutual

/-- Reads a value.  A collection laid out by indentation stands only where `block`
holds, and a list that is indented like the map around it only where `inMap`
does. -/
def value? (handles : List (Handle × Tag)) :
    Nat → Bool → Bool → List Token → Option (Tree String × List Token)
  | 0, _, _, _ => none
  | fuel + 1, block, inMap, tokens =>
    match tokens with
    | .repeated name :: rest => some (.repeated name, rest)
    | _ => do
      let (⟨anchor, tag⟩, rest) ← Properties.read? handles tokens
      match rest, block, inMap with
      | .word style text :: rest, _, _ => some (.word anchor tag style text, rest)
      | .flowListStart :: rest, _, _ =>
        (flowItems? handles fuel rest).map fun (items, rest) => (.list anchor tag items, rest)
      | .flowMapStart :: rest, _, _ =>
        (flowEntries? handles fuel rest).map fun (entries, rest) => (.map anchor tag entries, rest)
      | .dash :: rest, _, true =>
        (itemsInMap? handles fuel (.dash :: rest)).map fun (items, rest) =>
          (.list anchor tag items, rest)
      | .blockListStart :: rest, true, _ =>
        (blockItems? handles fuel rest).map fun (items, rest) => (.list anchor tag items, rest)
      | .blockMapStart :: rest, true, _ =>
        (blockEntries? handles fuel rest).map fun (entries, rest) =>
          (.map anchor tag entries, rest)
      | rest, _, _ =>
        if Properties.isGiven ⟨anchor, tag⟩ then some (.word anchor tag .plain [], rest) else none

/-- Reads the items of a list laid out by indentation. -/
def blockItems? (handles : List (Handle × Tag)) :
    Nat → List Token → Option (List (Tree String) × List Token)
  | 0, _ => none
  | fuel + 1, tokens =>
    match tokens with
    | .dash :: rest => do
      let (item, rest) ← optional? [.dash, .blockEnd] (value? handles fuel true false) rest
      let (items, rest) ← blockItems? handles fuel rest
      some (item :: items, rest)
    | .blockEnd :: rest => some ([], rest)
    | _ => none

/-- Reads the items of a list that is indented like the map around it; it ends with
its last item. -/
def itemsInMap? (handles : List (Handle × Tag)) :
    Nat → List Token → Option (List (Tree String) × List Token)
  | 0, _ => none
  | fuel + 1, tokens =>
    match tokens with
    | .dash :: rest => do
      let (item, rest) ← optional? (.dash :: blockEnds) (value? handles fuel true false) rest
      let (items, rest) ← itemsInMap? handles fuel rest
      some (item :: items, rest)
    | rest => some ([], rest)

/-- Reads the entries of a map laid out by indentation. -/
def blockEntries? (handles : List (Handle × Tag)) :
    Nat → List Token → Option (List (Tree String × Tree String) × List Token)
  | 0, _ => none
  | fuel + 1, tokens =>
    match tokens with
    | .key :: rest => do
      let (key, rest) ← optional? blockEnds (value? handles fuel true true) rest
      let (value, rest) ← valueOf? blockEnds (value? handles fuel true true) rest
      let (entries, rest) ← blockEntries? handles fuel rest
      some ((key, value) :: entries, rest)
    | .blockEnd :: rest => some ([], rest)
    | _ => none

/-- Reads the items of a list in brackets. -/
def flowItems? (handles : List (Handle × Tag)) :
    Nat → List Token → Option (List (Tree String) × List Token)
  | 0, _ => none
  | fuel + 1, tokens =>
    match tokens with
    | .flowListEnd :: rest => some ([], rest)
    | _ => do
      let (item, rest) ← flowItem? handles fuel tokens
      match rest with
      | .comma :: rest =>
        (flowItems? handles fuel rest).map fun (items, rest) => (item :: items, rest)
      | .flowListEnd :: rest => some ([item], rest)
      | _ => none

/-- Reads an item of a list in brackets, which may be a single entry of a map.  Where
its key is left out, the token that shows this stands for the key. -/
def flowItem? (handles : List (Handle × Tag)) :
    Nat → List Token → Option (Tree String × List Token)
  | 0, _ => none
  | fuel + 1, tokens =>
    match tokens with
    | .key :: rest => do
      let (key, rest) ←
        if rest.head?.any [.value, .comma, .flowListEnd].contains then some (absent, rest.drop 1)
        else value? handles fuel false false rest
      let (value, rest) ← valueOf? [.comma, .flowListEnd] (value? handles fuel false false) rest
      some (.map none none [(key, value)], rest)
    | _ => value? handles fuel false false tokens

/-- Reads the entries of a map in braces. -/
def flowEntries? (handles : List (Handle × Tag)) :
    Nat → List Token → Option (List (Tree String × Tree String) × List Token)
  | 0, _ => none
  | fuel + 1, tokens =>
    match tokens with
    | .flowMapEnd :: rest => some ([], rest)
    | _ => do
      let (entry, rest) ← flowEntry? handles fuel tokens
      match rest with
      | .comma :: rest =>
        (flowEntries? handles fuel rest).map fun (entries, rest) => (entry :: entries, rest)
      | .flowMapEnd :: rest => some ([entry], rest)
      | _ => none

/-- Reads an entry of a map in braces; a lone value is a key. -/
def flowEntry? (handles : List (Handle × Tag)) :
    Nat → List Token → Option ((Tree String × Tree String) × List Token)
  | 0, _ => none
  | fuel + 1, tokens =>
    match tokens with
    | .key :: rest => do
      let (key, rest) ←
        optional? [.value, .comma, .flowMapEnd] (value? handles fuel false false) rest
      let (value, rest) ← valueOf? [.comma, .flowMapEnd] (value? handles fuel false false) rest
      some ((key, value), rest)
    | _ => (value? handles fuel false false tokens).map fun (key, rest) => ((key, absent), rest)

end

/-- The directives in front of a document, and the tokens behind them. -/
def directives : List Token → List Directive × List Token
  | .directive directive :: rest =>
    let (more, others) := directives rest
    (directive :: more, others)
  | rest => ([], rest)

/-- The document begins here: behind its mark, which may be missing unless there are
directives, and without a value if the next document or the end follows the
mark. -/
def root? (handles : List (Handle × Tag)) (marked : Bool) (tokens : List Token) :
    Option (Tree String × List Token) :=
  let isEmpty :=
    match tokens with
    | [] | .directive _ :: _ | .documentStart :: _ | .documentEnd :: _ => true
    | _ => false
  if marked && isEmpty then some (absent, tokens)
  else value? handles (4 * tokens.length + 4) true false tokens

/-- The tree of the only document of a text. -/
def ofTokens? (tokens : List Token) : Option (Tree String) := do
  let (directives, rest) := directives tokens
  let handles ← Directive.handles? directives
  let (tree, others) ←
    match rest with
    | .documentStart :: rest => root? handles true rest
    | _ => if directives.isEmpty then root? handles false rest else none
  if others.all (· == .documentEnd) then some tree else none

end Tree

end Handover.Document.Yaml
