import Handover.Document.Yaml.Word.Gap

/-!
# Quoted words

A word between two marks.  Between single marks only the mark itself is escaped,
by doubling it; between double marks a backslash stands before a letter or
before hexadecimal digits for a character, and before a line end that does not
count.
-/

namespace Handover.Document.Yaml

/-- Characters with a short escape. -/
def shortEscapes : List (Char × Char) :=
  [('0', Char.ofNat 0), ('a', Char.ofNat 7), ('b', Char.ofNat 8), ('t', '\t'), ('\t', '\t'),
    ('n', '\n'), ('v', Char.ofNat 11), ('f', Char.ofNat 12), ('r', '\r'), ('e', Char.ofNat 27),
    (' ', ' '), (doubleMark, doubleMark), ('/', '/'), ('\\', '\\'), ('N', Char.ofNat 0x85),
    ('_', Char.ofNat 0xA0), ('L', Char.ofNat 0x2028), ('P', Char.ofNat 0x2029)]

/-- Number of hexadecimal digits of a long escape. -/
def longEscapes : List (Char × Nat) :=
  [('x', 2), ('u', 4), ('U', 8)]

/-- The next part of a quoted word. -/
inductive QuotedPart where
  /-- The mark at its end. -/
  | closing
  /-- A character, written as one and some further characters. -/
  | character (value : Char) (further : Nat)
  /-- A line end that does not count. -/
  | escapedBreak

namespace QuotedPart

/-- The next part between single marks. -/
def single? : List Char → Option QuotedPart
  | [] => none
  | c :: rest =>
    if c ≠ singleMark then some (character c 0)
    else if rest.head? = some singleMark then some (character c 1)
    else some closing

/-- The character with a code written in hexadecimal digits. -/
def charOfHex? (digits : List Char) : Option Char :=
  (digits? 16 digits).bind fun code => if code.isValidChar then some (Char.ofNat code) else none

/-- What the text after a backslash stands for. -/
def escaped? : List Char → Option QuotedPart
  | [] => none
  | c :: rest =>
    if isBreak c then some escapedBreak
    else
      match shortEscapes.lookup c, longEscapes.lookup c with
      | some value, _ => some (character value 1)
      | none, some width =>
        if rest.length < width then none
        else (charOfHex? (rest.take width)).map fun value => character value (width + 1)
      | none, none => none

/-- The next part between double marks. -/
def double? : List Char → Option QuotedPart
  | [] => none
  | c :: rest =>
    if c = doubleMark then some closing
    else if c = '\\' then escaped? rest
    else some (character c 0)

end QuotedPart

/-- Continues a quoted word after a gap, and the position behind it.  A line of it
must not look like the beginning or end of a document. -/
def quotedFrom? (part? : List Char → Option QuotedPart) (gap : Gap) (cursor : Cursor) :
    Option (List Char × Cursor) :=
  match _here : cursor.rest with
  | [] => none
  | c :: rest =>
    match gap.push? (c :: rest) with
    | some longer => quotedFrom? part? longer cursor.next
    | none =>
      if cursor.column = 0 && atDocumentMark (c :: rest) then none
      else
        match part? (c :: rest) with
        | none => none
        | some .closing => some (gap.text, cursor.next)
        | some (.character value further) =>
          (quotedFrom? part? .none (cursor.next.skip further)).map fun (word, after) =>
            (gap.text ++ value :: word, after)
        | some .escapedBreak =>
          (quotedFrom? part? (.lines none []) cursor.next.next).map fun (word, after) =>
            (gap.text ++ word, after)
termination_by cursor.rest.length
decreasing_by
  · exact Cursor.length_next_lt _here
  · exact Nat.lt_of_le_of_lt (Cursor.length_skip_le _ _) (Cursor.length_next_lt _here)
  · exact Nat.lt_of_le_of_lt (Cursor.length_next_le _) (Cursor.length_next_lt _here)

/-- A word in single marks, from behind the opening mark. -/
def singleQuoted? : Cursor → Option (List Char × Cursor) :=
  quotedFrom? QuotedPart.single? .none

/-- A word in double marks, from behind the opening mark. -/
def doubleQuoted? : Cursor → Option (List Char × Cursor) :=
  quotedFrom? QuotedPart.double? .none

end Handover.Document.Yaml
