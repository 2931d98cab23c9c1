import Handover.Document.Yaml.Value
import Handover.Document.Yaml.Word.Quoted

/-!
# Writing documents

A tree is written in block style: two blanks per level, and the items of a list
in the column of its key.  A text is left plain if it reads back as itself,
quoted with single marks if it is printable, written as a block if it has
several lines, and quoted with double marks otherwise.
-/

namespace Handover.Document.Yaml

/-! ## Forms of a text -/

/-- A plain word with this spelling would not be read as a text. -/
def isMistakable (text : List Char) : Bool :=
  hasLeadingZero text ||
    match resolve? text with
    | some (.text _) => false
    | _ => true

/-- Ranges of the characters that are written as they are in quotes. -/
def printableRanges : List (Nat × Nat) :=
  [(0x0A, 0x0A), (0x20, 0x7E), (0xA0, 0xD7FF), (0xE000, 0xFEFE), (0xFF00, 0xFFFD),
    (0x10000, 0x10FFFF)]

/-- The character is written as it is in quotes and in plain words. -/
def isPrintable (c : Char) : Bool :=
  printableRanges.any fun (first, last) => first ≤ c.toNat && c.toNat ≤ last

/-- Two neighbouring characters of a text have these properties. -/
def hasNeighbours (first second : Char → Bool) (text : List Char) : Bool :=
  (text.zip (text.drop 1)).any fun (c, d) => first c && second d

/-- An indicator within a text, given what precedes it, keeps it from being
plain. -/
def hasIndicator (afterGap : Bool) : List Char → Bool
  | [] => false
  | c :: rest =>
    (c = ':' && atGap rest) || (c = '#' && afterGap) || hasIndicator (atGap [c]) rest

/-- The text begins like something else than a plain word. -/
def startsOtherwise : List Char → Bool
  | [] => true
  | c :: rest =>
    if c = '-' || c = '?' || c = ':' then atGap rest else indicators.contains c

/-- The text can stand as a plain word in block style. -/
def isPlain (text : List Char) : Bool :=
  !startsOtherwise text && !hasIndicator true text && !text.any isBreak &&
    !(text.take 3 == ['-', '-', '-']) && !(text.take 3 == ['.', '.', '.']) &&
    text.head? ≠ some ' ' && text.getLast? ≠ some ' '

/-- How a text is written. -/
inductive TextForm where
  /-- Without marks. -/
  | plain
  /-- Between single marks. -/
  | single
  /-- Between double marks. -/
  | double
  /-- As a block that keeps its lines. -/
  | literal
deriving DecidableEq, Repr

/-- The form of a text.  Only escapes keep a blank before a line end, and where lines
are not indented as a block, one after it, too. -/
def TextForm.ofText (text : List Char) : TextForm :=
  if !text.all isPrintable || hasNeighbours (· = ' ') isBreak text then double
  else if text.contains '\n' then if text.getLast? = some ' ' then double else literal
  else if hasNeighbours isBreak (· = ' ') text then double
  else if isMistakable text || !isPlain text then single
  else plain

/-! ## Words -/

/-- Escapes that the writer uses. -/
def writtenEscapes : List (Char × Char) :=
  [(Char.ofNat 0, '0'), (Char.ofNat 7, 'a'), (Char.ofNat 8, 'b'), ('\t', 't'), ('\n', 'n'),
    (Char.ofNat 11, 'v'), (Char.ofNat 12, 'f'), ('\r', 'r'), (Char.ofNat 27, 'e'),
    (doubleMark, doubleMark), ('\\', '\\'), (Char.ofNat 0x85, 'N'), (Char.ofNat 0xA0, '_'),
    (Char.ofNat 0x2028, 'L'), (Char.ofNat 0x2029, 'P')]

/-- A number in hexadecimal capitals, padded with zeros. -/
def hexText (width n : Nat) : List Char :=
  let digits := (Nat.toDigits 16 n).map Char.toUpper
  List.replicate (width - digits.length) '0' ++ digits

/-- A character between double marks. -/
def doubleQuotedChar (c : Char) : List Char :=
  if isPrintable c && !isBreak c && c ≠ doubleMark && c ≠ '\\' then [c]
  else
    match writtenEscapes.lookup c with
    | some short => ['\\', short]
    | none =>
      if c.toNat ≤ 0xFF then '\\' :: 'x' :: hexText 2 c.toNat
      else if c.toNat ≤ 0xFFFF then '\\' :: 'u' :: hexText 4 c.toNat
      else '\\' :: 'U' :: hexText 8 c.toNat

/-- A text between double marks. -/
def doubleQuotedText (text : List Char) : List Char :=
  doubleMark :: text.flatMap doubleQuotedChar ++ [doubleMark]

/-- Blanks in front of a line of some depth. -/
def margin (depth : Nat) : List Char :=
  List.replicate depth ' '

/-- A text whose lines, except those without characters, are indented by `depth`;
`fresh` says that it continues behind a line end. -/
def indentedLines (depth : Nat) (fresh : Bool) : List Char → List Char
  | [] => []
  | c :: rest =>
    let further := c :: indentedLines depth (isBreak c) rest
    if fresh && !isBreak c then margin depth ++ further else further

/-- The last character of a text is a line end. -/
def endsInBreak (text : List Char) : Bool :=
  text.getLast?.any isBreak

/-- A text between single marks.  Its further lines and a mark on a line of its own
are indented by `depth`. -/
def singleQuotedText (depth : Nat) (text : List Char) : List Char :=
  let doubled := text.flatMap fun c => if c = singleMark then [c, c] else [c]
  let ending := if endsInBreak text then margin depth else []
  singleMark :: indentedLines depth false doubled ++ ending ++ [singleMark]

/-- The head of a block with a given text: its depth, if the text begins with a blank
or a line end, and what is to happen with the line ends after it. -/
def blockHeadText (text : List Char) : List Char :=
  let depth := if text.head?.any fun c => c = ' ' || isBreak c then ['2'] else []
  let chomping :=
    match text.reverse with
    | [] => ['-']
    | [c] => if isBreak c then ['+'] else ['-']
    | c :: d :: _ => if !isBreak c then ['-'] else if isBreak d then ['+'] else []
  depth ++ chomping

/-- A text as a block of lines, indented by `depth`, with the line end after it. -/
def literalText (depth : Nat) (text : List Char) : List Char :=
  let ending := if endsInBreak text then [] else ['\n']
  '|' :: blockHeadText text ++ '\n' :: indentedLines depth true text ++ ending

/-- A text as the value of a key or an item at some depth, with the line end after
it. -/
def textValue (depth : Nat) (text : List Char) : List Char :=
  match TextForm.ofText text with
  | .plain => text ++ ['\n']
  | .single => singleQuotedText depth text ++ ['\n']
  | .double => doubleQuotedText text ++ ['\n']
  | .literal => literalText depth text

/-! ## Trees -/

/-- The text of a number with a point. -/
def floatText (value : Float) : List Char :=
  (DecimalLayout.document.render (.ofFloat value)).toList

/-- A key, which stands on one line. -/
def keyText : Node Float → List Char
  | .text name =>
    let text := name.toList
    match TextForm.ofText text with
    | .plain => text
    | .single => if text.any isBreak then doubleQuotedText text else singleQuotedText 0 text
    | _ => doubleQuotedText text
  | .natural value => (toString value).toList
  | .negative magnitude => '-' :: (toString magnitude).toList
  | .bool value => (toString value).toList
  | .float value => floatText value
  | _ => ['~']

mutual

/-- A value after its key, whose own depth is `depth`. -/
def valueText (depth : Nat) : Node Float → List Char
  | .null => " null\n".toList
  | .bool value => ' ' :: (toString value).toList ++ ['\n']
  | .natural value => ' ' :: (toString value).toList ++ ['\n']
  | .negative magnitude => ' ' :: '-' :: (toString magnitude).toList ++ ['\n']
  | .float value => ' ' :: floatText value ++ ['\n']
  | .text value => ' ' :: textValue (depth + 2) value.toList
  | .list [] => " []\n".toList
  | .list (item :: items) => '\n' :: itemsText depth (item :: items)
  | .map [] => [' ', '{', '}', '\n']
  | .map (entry :: entries) => '\n' :: entriesText (depth + 2) (entry :: entries)

/-- An item after its dash, which stands at `depth`. -/
def itemText (depth : Nat) : Node Float → List Char
  | .list (item :: items) => ' ' :: (itemsText (depth + 2) (item :: items)).drop (depth + 2)
  | .map (entry :: entries) => ' ' :: (entriesText (depth + 2) (entry :: entries)).drop (depth + 2)
  | .null => " null\n".toList
  | .bool value => ' ' :: (toString value).toList ++ ['\n']
  | .natural value => ' ' :: (toString value).toList ++ ['\n']
  | .negative magnitude => ' ' :: '-' :: (toString magnitude).toList ++ ['\n']
  | .float value => ' ' :: floatText value ++ ['\n']
  | .text value => ' ' :: textValue (depth + 2) value.toList
  | .list [] => " []\n".toList
  | .map [] => [' ', '{', '}', '\n']

/-- The items of a list at `depth`. -/
def itemsText (depth : Nat) : List (Node Float) → List Char
  | [] => []
  | item :: items => margin depth ++ '-' :: itemText depth item ++ itemsText depth items

/-- The entries of a map at `depth`. -/
def entriesText (depth : Nat) : List (Node Float × Node Float) → List Char
  | [] => []
  | (key, value) :: entries =>
    margin depth ++ keyText key ++ ':' :: valueText depth value ++ entriesText depth entries

end

/-- The text of a document. -/
def write (node : Node Float) : String :=
  String.ofList
    (match node with
    | .map (entry :: entries) => entriesText 0 (entry :: entries)
    | .list (item :: items) => itemsText 0 (item :: items)
    | other => (valueText 0 other).drop 1)

end Handover.Document.Yaml
