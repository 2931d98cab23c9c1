import Handover.Document.Yaml.Cursor

/-!
# Gaps within words

A word may run over several lines.  Blanks between two of its parts are kept on
a line and dropped around line ends; a single line end counts as a space, and
each further one as a line end.  A separator of lines or paragraphs always
counts as itself.
-/

namespace Handover.Document.Yaml

/-- What stands between two parts of a word. -/
inductive Gap where
  /-- Blanks on a line. -/
  | blanks (text : List Char)
  /-- Line ends, the first of which may be escaped, and then counts for
  nothing. -/
  | lines (first : Option Char) (further : List Char)

namespace Gap

/-- No gap at all. -/
def none : Gap :=
  blanks []

/-- The gap leaves the line. -/
def isBroken : Gap → Bool
  | blanks _ => false
  | lines _ _ => true

/-- There is nothing between the parts. -/
def isEmpty : Gap → Bool
  | blanks text => text.isEmpty
  | lines _ _ => false

/-- The gap followed by a blank. -/
def pushBlank (c : Char) : Gap → Gap
  | blanks text => blanks (text ++ [c])
  | broken => broken

/-- The gap followed by a line end. -/
def pushBreak (c : Char) : Gap → Gap
  | blanks _ => lines (some c) []
  | lines first further => lines first (further ++ [c])

/-- The gap followed by the next character, if that is a blank or a line end. -/
def push? (gap : Gap) (text : List Char) : Option Gap :=
  match lineEnd? text, text with
  | some (c, _), _ => some (gap.pushBreak c)
  | Option.none, c :: _ => if isSpace c then some (gap.pushBlank c) else Option.none
  | Option.none, [] => Option.none

/-- What the gap counts as. -/
def text : Gap → List Char
  | blanks text => text
  | lines Option.none further => further
  | lines (some first) further =>
    if first ≠ '\n' then first :: further else if further.isEmpty then [' '] else further

end Gap

end Handover.Document.Yaml
