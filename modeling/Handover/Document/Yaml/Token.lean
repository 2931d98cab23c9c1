import Handover.Document.Yaml.Directive

/-!
# Tokens

The parts that a YAML text falls into.  Indentation has become pairs of a start
and an end, and a key is announced by a token of its own, so that the tokens
alone determine the tree.
-/

namespace Handover.Document.Yaml

/-- How a word is written. -/
inductive Style where
  /-- Without marks. -/
  | plain
  /-- Between two marks. -/
  | quoted
  /-- As a block that keeps its lines. -/
  | literal
  /-- As a block whose lines are joined. -/
  | folded
deriving DecidableEq, Repr

/-- A part of a text. -/
inductive Token where
  /-- A line before a document. -/
  | directive (directive : Directive)
  /-- The beginning of a document. -/
  | documentStart
  /-- The end of a document. -/
  | documentEnd
  /-- The beginning of a list laid out by indentation. -/
  | blockListStart
  /-- The beginning of a map laid out by indentation. -/
  | blockMapStart
  /-- The end of a collection laid out by indentation. -/
  | blockEnd
  /-- The beginning of a list in brackets. -/
  | flowListStart
  /-- The end of a list in brackets. -/
  | flowListEnd
  /-- The beginning of a map in braces. -/
  | flowMapStart
  /-- The end of a map in braces. -/
  | flowMapEnd
  /-- A dash in front of an item. -/
  | dash
  /-- A comma between items or entries. -/
  | comma
  /-- A key follows. -/
  | key
  /-- The value of a key follows. -/
  | value
  /-- The repetition of a named value. -/
  | repeated (name : String)
  /-- The name of the value that follows. -/
  | anchor (name : String)
  /-- The type of the value that follows. -/
  | tag (mark : TagMark)
  /-- A word. -/
  | word (style : Style) (text : List Char)
deriving DecidableEq

end Handover.Document.Yaml
