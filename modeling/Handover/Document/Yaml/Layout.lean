import Handover.Document.Yaml.Token
import Handover.Document.Yaml.Word.Block
import Handover.Document.Yaml.Word.Plain
import Handover.Document.Yaml.Word.Quoted

/-!
# Layout

How a text falls into tokens.  Outside of brackets a collection ends where a line
begins further left than its own lines.  Whether a word is a key shows only at
the colon behind it; until then its place is remembered, so that the token that
announces a key can be put in front of it.  A key without a question mark stands
on one line and has at most `keyLimit` octets.
-/

namespace Handover.Document.Yaml

/-- A token that a colon would make a key. -/
structure KeyPlace where
  /-- Number of tokens before it. -/
  number : Nat
  /-- Nothing but a key can stand here. -/
  required : Bool
  /-- Where it begins. -/
  start : Cursor

/-- Most octets of a key without a question mark. -/
def keyLimit : Nat :=
  1024

namespace KeyPlace

/-- A colon at the position would be too late for the key. -/
def isStale (place : KeyPlace) (cursor : Cursor) : Bool :=
  place.start.line < cursor.line || place.start.offset + keyLimit < cursor.offset

/-- What is left of a possible key at a position; a required one must not be
lost. -/
def remaining? (cursor : Cursor) : Option KeyPlace → Option (Option KeyPlace)
  | none => some none
  | some place =>
    if !place.isStale cursor then some (some place)
    else if place.required then none
    else some none

end KeyPlace

/-- A text up to a position, in tokens. -/
structure Layout where
  /-- The position. -/
  cursor : Cursor
  /-- The tokens before it, the last one first. -/
  tokens : List Token
  /-- Number of tokens. -/
  count : Nat
  /-- Columns of the open collections outside of brackets, the innermost first. -/
  indents : List Nat
  /-- The token that may be a key in the innermost brackets. -/
  place : Option KeyPlace
  /-- The tokens that may be keys outside of each open bracket. -/
  outerPlaces : List (Option KeyPlace)
  /-- A key may begin here. -/
  keyAllowed : Bool

namespace Layout

/-- A text without any tokens so far. -/
def start (text : List Char) : Layout where
  cursor := .start text
  tokens := []
  count := 0
  indents := []
  place := none
  outerPlaces := []
  keyAllowed := true

/-- The position is within brackets. -/
def isFlow (layout : Layout) : Bool :=
  !layout.outerPlaces.isEmpty

/-- Adds a token that ends at a position and says whether a key may follow. -/
def push (layout : Layout) (token : Token) (after : Cursor) (keyAllowed : Bool) : Layout :=
  { layout with
    cursor := after, tokens := token :: layout.tokens, count := layout.count + 1
    keyAllowed := keyAllowed }

/-- Adds tokens in front of a token that was already read. -/
def insert (layout : Layout) (number : Nat) (added : List Token) : Layout :=
  let later := layout.count - number
  { layout with
    tokens := layout.tokens.take later ++ (added.reverse ++ layout.tokens.drop later)
    count := layout.count + added.length }

/-! ## Keys -/

/-- Gives the possible key up; a required one must not be lost. -/
def dropPlace? (layout : Layout) : Option Layout :=
  if layout.place.any KeyPlace.required then none else some { layout with place := none }

/-- Remembers that the next token may be a key. -/
def savePlace? (layout : Layout) : Option Layout :=
  if !layout.keyAllowed then some layout
  else do
    let cleared ← layout.dropPlace?
    let required := !layout.isFlow && layout.indents.head? = some layout.cursor.column
    some { cleared with place := some ⟨layout.count, required, layout.cursor⟩ }

/-- Gives possible keys up that are too far away. -/
def dropStale? (layout : Layout) : Option Layout := do
  let place ← KeyPlace.remaining? layout.cursor layout.place
  let outerPlaces ← layout.outerPlaces.mapM (KeyPlace.remaining? layout.cursor)
  some { layout with place := place, outerPlaces := outerPlaces }

/-! ## Collections -/

/-- Ends the collections further right than a column, or all of them. -/
def closeBlocks (layout : Layout) (column : Option Nat) : Layout :=
  if layout.isFlow then layout
  else
    let isClosed := fun indent => column.all (· < indent)
    let closed := layout.indents.takeWhile isClosed
    { layout with
      indents := layout.indents.drop closed.length
      tokens := closed.map (fun _ => .blockEnd) ++ layout.tokens
      count := layout.count + closed.length }

/-- The column is further right than that of the open collections. -/
def opensBlock (layout : Layout) (column : Nat) : Bool :=
  !layout.isFlow && layout.indents.head?.all (· < column)

/-- Begins a collection at the position, unless one is open there. -/
def openBlock (layout : Layout) (token : Token) : Layout :=
  let column := layout.cursor.column
  if layout.opensBlock column then
    { layout with
      indents := column :: layout.indents, tokens := token :: layout.tokens
      count := layout.count + 1 }
  else layout

/-- Announces the key that was remembered, and the map that it begins. -/
def announceKey (layout : Layout) (place : KeyPlace) : Layout :=
  let column := place.start.column
  if layout.opensBlock column then
    { layout.insert place.number [.blockMapStart, .key] with indents := column :: layout.indents }
  else layout.insert place.number [.key]

/-! ## Reading of tokens -/

/-- The position of the next token, behind blanks, line ends and comments, and
whether a key may begin there.  A tab counts as a blank only where no key may
begin. -/
def toToken (flow keyAllowed : Bool) (cursor : Cursor) : Cursor × Bool :=
  match _here : cursor.rest with
  | [] => (cursor, keyAllowed)
  | c :: _ =>
    if cursor.column = 0 && isByteOrderMark c then toToken flow keyAllowed cursor.next
    else if c = ' ' || (c = '\t' && (flow || !keyAllowed)) then toToken flow keyAllowed cursor.next
    else if isBreak c then toToken flow (keyAllowed || !flow) cursor.next
    else if c = '#' then
      toToken flow keyAllowed (cursor.next.skipWhile fun _ => true)
    else (cursor, keyAllowed)
termination_by cursor.rest.length
decreasing_by
  · exact Cursor.length_next_lt _here
  · exact Cursor.length_next_lt _here
  · exact Cursor.length_next_lt _here
  · exact Nat.lt_of_le_of_lt (Cursor.length_skip_le _ _) (Cursor.length_next_lt _here)

/-- Goes to the next token. -/
def toNext? (layout : Layout) : Option Layout := do
  let (cursor, keyAllowed) := toToken layout.isFlow layout.keyAllowed layout.cursor
  let fresh ← { layout with cursor := cursor, keyAllowed := keyAllowed }.dropStale?
  some (fresh.closeBlocks (some cursor.column))

/-- Reads a directive or the beginning or end of a document, which end all
collections. -/
def document? (layout : Layout) : Option Layout := do
  let closed ← (layout.closeBlocks none).dropPlace?
  let cursor := layout.cursor
  if cursor.isAt '%' then
    (Directive.read? cursor).map fun (directive, after) =>
      closed.push (.directive directive) after false
  else
    let token := if cursor.isAt '-' then Token.documentStart else .documentEnd
    some (closed.push token (cursor.skip 3) false)

/-- Reads an opening bracket. -/
def openFlow? (layout : Layout) (token : Token) : Option Layout := do
  let saved ← layout.savePlace?
  let inner := { saved with place := none, outerPlaces := saved.place :: saved.outerPlaces }
  some (inner.push token layout.cursor.next true)

/-- Reads a closing bracket. -/
def closeFlow? (layout : Layout) (token : Token) : Option Layout := do
  let cleared ← layout.dropPlace?
  let outer :=
    match cleared.outerPlaces with
    | [] => cleared
    | place :: places => { cleared with place := place, outerPlaces := places }
  some (outer.push token layout.cursor.next false)

/-- Reads a comma. -/
def comma? (layout : Layout) : Option Layout :=
  layout.dropPlace?.map fun cleared => cleared.push .comma layout.cursor.next true

/-- Reads a mark that begins a collection, outside of brackets only where a key may
begin. -/
def blockMark? (layout : Layout) (start token : Token) (keyAllowed : Bool) : Option Layout :=
  if !layout.isFlow && !layout.keyAllowed then none
  else
    (layout.openBlock start).dropPlace?.map fun cleared =>
      cleared.push token layout.cursor.next keyAllowed

/-- Reads a colon. -/
def value? (layout : Layout) : Option Layout :=
  let after := layout.cursor.next
  match layout.place with
  | some place =>
    some (({ layout with place := none }.announceKey place).push .value after false)
  | none =>
    if layout.isFlow then some (layout.push .value after false)
    else if layout.keyAllowed then
      some ((layout.openBlock .blockMapStart).push .value after true)
    else none

/-- A name is complete in front of this text. -/
def endsName (text : List Char) : Bool :=
  atGap text || text.head?.any fun c => ['?', ':', ',', ']', '}', '%', '@', graveMark].contains c

/-- Reads the name of a value. -/
def name? (layout : Layout) (token : String → Token) : Option Layout := do
  let saved ← layout.savePlace?
  let (name, after) := (layout.cursor.skip 1).takeWhile isNameChar
  if name.isEmpty || !endsName after.rest then none
  else some (saved.push (token (String.ofList name)) after false)

/-- Reads the name of a type. -/
def tag? (layout : Layout) : Option Layout := do
  let saved ← layout.savePlace?
  let (mark, after) ← tagMark? layout.isFlow layout.cursor
  some (saved.push (.tag mark) after false)

/-- Reads a word as a block of lines. -/
def blockWord? (layout : Layout) (style : Style) : Option Layout := do
  let cleared ← layout.dropPlace?
  let (text, after) ← block? (style = .folded) layout.indents.head? (layout.cursor.skip 1)
  some (cleared.push (.word style text) after true)

/-- Reads a quoted word. -/
def quotedWord? (layout : Layout) (read? : Cursor → Option (List Char × Cursor)) :
    Option Layout := do
  let saved ← layout.savePlace?
  let (text, after) ← read? (layout.cursor.skip 1)
  some (saved.push (.word .quoted text) after false)

/-- Reads a plain word. -/
def plainWord? (layout : Layout) : Option Layout := do
  let saved ← layout.savePlace?
  let margin := layout.indents.head?.elim 0 (· + 1)
  let (text, lineEnded, after) ← plain? layout.isFlow margin layout.cursor
  some (saved.push (.word .plain text) after lineEnded)

/-- Reads the token at the position. -/
def token? (layout : Layout) : Option Layout :=
  let cursor := layout.cursor
  let flow := layout.isFlow
  if cursor.column = 0 && (cursor.isAt '%' || atDocumentMark cursor.rest) then layout.document?
  else if cursor.isAt '[' then layout.openFlow? .flowListStart
  else if cursor.isAt '{' then layout.openFlow? .flowMapStart
  else if cursor.isAt ']' then layout.closeFlow? .flowListEnd
  else if cursor.isAt '}' then layout.closeFlow? .flowMapEnd
  else if cursor.isAt ',' then layout.comma?
  else if cursor.atMark '-' then layout.blockMark? .blockListStart .dash true
  else if cursor.atMark '?' || (flow && cursor.isAt '?') then
    layout.blockMark? .blockMapStart .key !flow
  else if cursor.atMark ':' || (flow && cursor.isAt ':') then layout.value?
  else if cursor.isAt '*' then layout.name? .repeated
  else if cursor.isAt '&' then layout.name? .anchor
  else if cursor.isAt '!' then layout.tag?
  else if !flow && cursor.isAt '|' then layout.blockWord? .literal
  else if !flow && cursor.isAt '>' then layout.blockWord? .folded
  else if cursor.isAt singleMark then layout.quotedWord? singleQuoted?
  else if cursor.isAt doubleMark then layout.quotedWord? doubleQuoted?
  else if startsPlain flow cursor.rest then layout.plainWord?
  else none

/-- The tokens of the whole text, where `fuel` bounds the number of tokens that are
left. -/
def tokens? : Nat → Layout → Option (List Token)
  | 0, _ => none
  | fuel + 1, layout => do
    let next ← layout.toNext?
    if next.cursor.rest.isEmpty then
      let final ← (next.closeBlocks none).dropPlace?
      some final.tokens.reverse
    else tokens? fuel (← next.token?)

end Layout

/-- The tokens of a text.  Every token but the last takes a character of it. -/
def tokens? (text : List Char) : Option (List Token) :=
  Layout.tokens? (text.length + 1) (.start text)

end Handover.Document.Yaml
