/-!
# Characters of a YAML text

The classes of characters that decide how a text falls into words: blanks, line
ends, letters of a name, and the indicators that stand for structure.  A text
holds no control characters other than tabs and line ends.
-/

namespace Handover.Document.Yaml

/-- A blank within a line. -/
def isSpace (c : Char) : Bool :=
  c = ' ' || c = '\t'

/-- Codes of the line ends that are kept as they are: the separators of lines and
of paragraphs. -/
def separatorCodes : List Nat :=
  [0x2028, 0x2029]

/-- Codes of the line ends that all stand for the same one: line feed, carriage
return and next line. -/
def lineEndCodes : List Nat :=
  [0x0A, 0x0D, 0x85]

/-- A character that ends a line. -/
def isBreak (c : Char) : Bool :=
  lineEndCodes.contains c.toNat || separatorCodes.contains c.toNat

/-- The line end at the front of a text: what it stands for, and the text after
it.  A carriage return and the line feed behind it are one line end. -/
def lineEnd? : List Char → Option (Char × List Char)
  | '\r' :: '\n' :: rest => some ('\n', rest)
  | c :: rest =>
    if lineEndCodes.contains c.toNat then some ('\n', rest)
    else if separatorCodes.contains c.toNat then some (c, rest)
    else none
  | [] => none

/-- The text is at its end, at a blank or at a line end. -/
def atGap : List Char → Bool
  | [] => true
  | c :: _ => isSpace c || isBreak c

/-- Letters of the names of values, of tag handles and of directives. -/
def isNameChar (c : Char) : Bool :=
  c.isAlphanum || c = '_' || c = '-'

/-- The mark that may begin a line and counts for nothing there. -/
def isByteOrderMark (c : Char) : Bool :=
  c.toNat = 0xFEFF

/-- Ranges of the characters that may stand in a text. -/
def allowedRanges : List (Nat × Nat) :=
  [(0x09, 0x0A), (0x0D, 0x0D), (0x20, 0x7E), (0x85, 0x85), (0xA0, 0xD7FF), (0xE000, 0xFFFD),
    (0x10000, 0x10FFFF)]

/-- The character may stand in a text. -/
def isAllowed (c : Char) : Bool :=
  allowedRanges.any fun (first, last) => first ≤ c.toNat && c.toNat ≤ last

/-- The mark of words whose only escape is the doubled mark. -/
def singleMark : Char :=
  Char.ofNat 39

/-- The mark of words with escapes. -/
def doubleMark : Char :=
  Char.ofNat 34

/-- The mark without a meaning. -/
def graveMark : Char :=
  Char.ofNat 96

/-- Characters that delimit a flow collection. -/
def flowIndicators : List Char :=
  [',', '[', ']', '{', '}']

/-- Characters that no plain word begins with, unless what follows makes it one. -/
def indicators : List Char :=
  ['-', '?', ':', ',', '[', ']', '{', '}', '#', '&', '*', '!', '|', '>', singleMark, doubleMark,
    '%', '@', graveMark]

/-- The first characters of the text are three times this mark, and a gap
follows them. -/
def startsDocumentMark (mark : Char) (text : List Char) : Bool :=
  text.take 3 == [mark, mark, mark] && atGap (text.drop 3)

/-- The text begins with the mark of a document's beginning or end. -/
def atDocumentMark (text : List Char) : Bool :=
  startsDocumentMark '-' text || startsDocumentMark '.' text

/-- Value of a digit in some base up to sixteen. -/
def digitValue? (c : Char) : Option Nat :=
  if '0' ≤ c ∧ c ≤ '9' then some (c.toNat - '0'.toNat)
  else if 'a' ≤ c ∧ c ≤ 'f' then some (c.toNat - 'a'.toNat + 10)
  else if 'A' ≤ c ∧ c ≤ 'F' then some (c.toNat - 'A'.toNat + 10)
  else none

/-- Continues a number by digits of a base. -/
def digitsFrom? (base value : Nat) : List Char → Option Nat
  | [] => some value
  | c :: rest =>
    match digitValue? c with
    | none => none
    | some digit =>
      if digit < base then digitsFrom? base (base * value + digit) rest else none

/-- Number of at least one digit of a base. -/
def digits? (base : Nat) (text : List Char) : Option Nat :=
  if text.isEmpty then none else digitsFrom? base 0 text

end Handover.Document.Yaml
