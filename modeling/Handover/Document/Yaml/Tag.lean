import Handover.Document.Yaml.Cursor

/-!
# Tags

A value may be preceded by the name of its type.  In the text a type is named in
full between brackets, or by a handle, which stands for the beginning of its
name, and the rest.  Letters may be written as the octets of their encoding.
-/

namespace Handover.Document.Yaml

/-- The full name of a type, as octets, which need not be the encoding of a
text. -/
abbrev Tag := List UInt8

/-- A handle as it stands in a text: nothing, one exclamation mark, or a name
between two. -/
abbrev Handle := List Char

/-- A type as it is named in a text. -/
structure TagMark where
  /-- The handle; without one the type is named in full. -/
  handle : Handle
  /-- The rest of the name. -/
  suffix : Tag
deriving DecidableEq

/-- Octets of a text. -/
def octets (text : List Char) : List UInt8 :=
  (String.ofList text).toUTF8.toList

namespace Tag

/-- Beginning of the names of the common types. -/
def commonStart : List Char :=
  "tag:yaml.org,2002:".toList

/-- A common type. -/
def common (name : String) : Tag :=
  octets (commonStart ++ name.toList)

/-- The name of a private type, which begins with an exclamation mark; the mark
alone is a name, too. -/
def privateName? (tag : Tag) : Option String :=
  match tag with
  | [] => none
  | mark :: name =>
    if mark = '!'.toUInt8 then
      String.fromUTF8? ⟨(if name.isEmpty then [mark] else name).toArray⟩
    else none

end Tag

/-! ## Names of types in a text -/

/-- Letters of the name of a type; within brackets, more of them. -/
def isTagChar (bracketed : Bool) (c : Char) : Bool :=
  isNameChar c || ";/?:@&=+$.!~*()".contains c || c = singleMark ||
    (bracketed && [',', '[', ']'].contains c)

/-- Number of octets that encode a letter whose first octet is given. -/
def encodingLength? (octet : Nat) : Option Nat :=
  if octet < 0x80 then some 1
  else if octet < 0xC0 then none
  else if octet < 0xE0 then some 2
  else if octet < 0xF0 then some 3
  else if octet < 0xF8 then some 4
  else none

/-- Reads a letter of a name or an octet in hexadecimal digits.  `pending` octets
are left of the letter that was begun. -/
def tagOctets? (bracketed : Bool) (pending : Nat) : List Char → Option (Tag × Nat)
  | '%' :: high :: low :: rest => do
    let octet ← digits? 16 [high, low]
    let left ←
      if pending = 0 then (encodingLength? octet).map (· - 1)
      else if 0x80 ≤ octet ∧ octet < 0xC0 then some (pending - 1)
      else none
    let (more, count) ← tagOctets? bracketed left rest
    some (UInt8.ofNat octet :: more, count + 3)
  | c :: rest =>
    if c = '%' then none
    else if isTagChar bracketed c && pending = 0 then
      (tagOctets? bracketed 0 rest).map fun (more, count) => (octets [c] ++ more, count + 1)
    else if pending = 0 then some ([], 0) else none
  | [] => if pending = 0 then some ([], 0) else none

/-- The name of a type after its beginning, which takes part in what a text must
have of it, and the position behind it.  An octet zero ends the name. -/
def tagName? (bracketed : Bool) (begun : List Char) (cursor : Cursor) : Option (Tag × Cursor) := do
  let (name, count) ← tagOctets? bracketed 0 cursor.rest
  if begun.isEmpty && count = 0 then none
  else some ((octets (begun.drop 1) ++ name).takeWhile (· ≠ 0), cursor.skip count)

namespace Handle

/-- The handle at the front of a text, or what may be the beginning of a name
instead. -/
def ofText (text : List Char) : Handle :=
  match text with
  | '!' :: rest =>
    let name := rest.takeWhile isNameChar
    if rest[name.length]? = some '!' then '!' :: name ++ ['!'] else '!' :: name
  | _ => []

/-- The handle is complete: its name is closed. -/
def isClosed (handle : Handle) : Bool :=
  2 ≤ handle.length && handle.getLast? = some '!'

end Handle

/-- The type named at a position, and the position behind it.  In a flow collection
a comma may follow directly. -/
def tagMark? (flow : Bool) (cursor : Cursor) : Option (TagMark × Cursor) := do
  let (mark, after) ←
    if (cursor.rest.drop 1).head? = some '<' then do
      let (name, after) ← tagName? true [] (cursor.skip 2)
      if after.isAt '>' then some (TagMark.mk [] name, after.skip 1) else none
    else
      let handle := Handle.ofText cursor.rest
      let start := cursor.skip handle.length
      if Handle.isClosed handle then
        (tagName? false [] start).map fun (name, after) => (TagMark.mk handle name, after)
      else
        (tagName? false handle start).map fun (name, after) =>
          (if name.isEmpty then TagMark.mk [] (octets ['!']) else TagMark.mk ['!'] name, after)
  if atGap after.rest || (flow && after.isAt ',') then some (mark, after) else none

end Handover.Document.Yaml
