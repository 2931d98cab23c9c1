import Handover.Document.Yaml.Tag

/-!
# Directives

Lines before a document that begin with a percent sign.  They give the version
of the language, of which two are understood, and the beginnings of names that
tag handles stand for.
-/

namespace Handover.Document.Yaml

/-- A line before a document. -/
inductive Directive where
  /-- The version of the language. -/
  | version (major minor : Nat)
  /-- The beginning of the names of types that a handle stands for. -/
  | abbreviation (handle : Handle) (start : Tag)
deriving DecidableEq

namespace Directive

/-- Most digits of a part of a version. -/
def versionDigits : Nat :=
  9

/-- A part of a version, and the position behind it. -/
def versionPart? (cursor : Cursor) : Option (Nat × Cursor) :=
  let (digits, after) := cursor.takeWhile Char.isDigit
  if digits.length ≤ versionDigits then (digits? 10 digits).map fun part => (part, after) else none

/-- Reads a version. -/
def version? (cursor : Cursor) : Option (Directive × Cursor) := do
  let (major, point) ← versionPart? (cursor.skipWhile isSpace)
  if point.isAt '.' then
    let (minor, after) ← versionPart? (point.skip 1)
    some (.version major minor, after)
  else none

/-- Reads a handle and what it stands for, with blanks between them and a gap
behind. -/
def abbreviation? (cursor : Cursor) : Option (Directive × Cursor) := do
  let start := cursor.skipWhile isSpace
  let handle := Handle.ofText start.rest
  let behind := start.skip handle.length
  if (handle = ['!'] || Handle.isClosed handle) && behind.rest.head?.any isSpace then
    let (name, after) ← tagName? true [] (behind.skipWhile isSpace)
    if atGap after.rest then some (.abbreviation handle name, after) else none
  else none

/-- The directive at a position, and the position of the next line. -/
def read? (cursor : Cursor) : Option (Directive × Cursor) := do
  let (name, start) := (cursor.skip 1).takeWhile isNameChar
  if !atGap start.rest then none
  else
    let (directive, after) ←
      if name = "YAML".toList then version? start
      else if name = "TAG".toList then abbreviation? start
      else none
    (after.nextLine?).map fun next => (directive, next)

/-- Versions of the language that are understood. -/
def versions : List (Nat × Nat) :=
  [(1, 1), (1, 2)]

/-- What the two shortest handles stand for unless a directive says otherwise. -/
def usualHandles : List (Handle × Tag) :=
  [(['!'], octets ['!']), (['!', '!'], octets Tag.commonStart)]

/-- The beginnings of names that handles stand for under directives, of which no
two may say the same thing. -/
def handles? (directives : List Directive) : Option (List (Handle × Tag)) :=
  let stated := directives.filterMap fun
    | version major minor => some (major, minor)
    | abbreviation _ _ => none
  let named := directives.filterMap fun
    | version _ _ => none
    | abbreviation handle start => some (handle, start)
  if stated.length ≤ 1 && stated.all versions.contains && (named.map Prod.fst).Nodup then
    some (named ++ usualHandles)
  else none

/-- The full name of a type. -/
def tag? (handles : List (Handle × Tag)) (mark : TagMark) : Option Tag :=
  if mark.handle.isEmpty then some mark.suffix
  else (handles.lookup mark.handle).map (· ++ mark.suffix)

end Directive

end Handover.Document.Yaml
