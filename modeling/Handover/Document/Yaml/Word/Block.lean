import Handover.Document.Yaml.Word.Gap

/-!
# Words as blocks of lines

A word whose lines stand below its mark, further in than what surrounds it.  A
literal block keeps its line ends; a folded one joins two lines by a space
unless one of them begins with a blank.  The head of the block, on the line of
its mark, may give the indentation and say how line ends after the last line
are treated.
-/

namespace Handover.Document.Yaml

/-- How the line ends after a block are kept. -/
inductive Chomping where
  /-- None. -/
  | strip
  /-- One. -/
  | clip
  /-- All. -/
  | keep
deriving DecidableEq, Repr

namespace Chomping

/-- The treatment that a character of the head asks for. -/
def ofChar? (c : Char) : Option Chomping :=
  if c = '-' then some strip else if c = '+' then some keep else none

end Chomping

/-- The head of a block. -/
structure BlockHead where
  /-- Treatment of the line ends after the block. -/
  chomping : Chomping
  /-- Indentation relative to what surrounds the block, if given. -/
  depth : Option Nat

namespace BlockHead

/-- A depth as a digit; there is no depth zero. -/
def depth? (c : Char) : Option Nat :=
  if '1' ≤ c ∧ c ≤ '9' then some (c.toNat - '0'.toNat) else none

/-- The head at the front of a text, and the number of its characters.  Its two
parts may come in either order. -/
def read (text : List Char) : BlockHead × Nat :=
  match text with
  | [] => (⟨.clip, none⟩, 0)
  | c :: rest =>
    match Chomping.ofChar? c, depth? c with
    | some chomping, _ =>
      match rest.head?.bind depth? with
      | some depth => (⟨chomping, some depth⟩, 2)
      | none => (⟨chomping, none⟩, 1)
    | none, some depth =>
      match rest.head?.bind Chomping.ofChar? with
      | some chomping => (⟨chomping, some depth⟩, 2)
      | none => (⟨.clip, some depth⟩, 1)
    | none, none => (⟨.clip, none⟩, 0)

end BlockHead

/-- A line of a block with the line end after it, unless the text ends, and the
line ends of the empty lines that follow. -/
structure BlockLine where
  /-- The line without its indentation. -/
  text : List Char
  /-- The line end after it. -/
  lineEnd : Option Char
  /-- The line ends of empty lines. -/
  further : List Char

namespace BlockLine

/-- The line begins with a blank. -/
def startsBlank (line : BlockLine) : Bool :=
  line.text.head?.any isSpace

/-- What stands between a line and the next one. -/
def joint (folded : Bool) (line next : BlockLine) : List Char :=
  if folded && line.lineEnd = some '\n' && !line.startsBlank && !next.startsBlank then
    if line.further.isEmpty then [' '] else line.further
  else line.lineEnd.toList ++ line.further

/-- The word made of lines. -/
def join (folded : Bool) (chomping : Chomping) : List BlockLine → List Char
  | [] => []
  | [line] =>
    match chomping with
    | .strip => line.text
    | .clip => line.text ++ line.lineEnd.toList
    | .keep => line.text ++ line.lineEnd.toList ++ line.further
  | line :: next :: lines =>
    line.text ++ line.joint folded next ++ join folded chomping (next :: lines)

end BlockLine

/-- Passes empty lines and the indentation after them: the line ends, the deepest
column of a line, and the position.  The indentation holds no tabs. -/
def emptyLines? (indent : Option Nat) (deepest : Nat) (cursor : Cursor) :
    Option (List Char × Nat × Cursor) :=
  let within := indent.all (cursor.column < ·)
  match _here : cursor.rest with
  | [] => some ([], max deepest cursor.column, cursor)
  | c :: rest =>
    if within && c = ' ' then emptyLines? indent deepest cursor.next
    else if within && c = '\t' then none
    else
      match lineEnd? (c :: rest) with
      | some (ending, _) =>
        (emptyLines? indent (max deepest cursor.column) cursor.next).map fun (endings, after) =>
          (ending :: endings, after)
      | none => some ([], max deepest cursor.column, cursor)
termination_by cursor.rest.length
decreasing_by all_goals exact Cursor.length_next_lt _here

/-- The lines of a block, read from the column of its indentation, and the position
behind them. -/
def blockLines? (indent : Nat) : Nat → Cursor → Option (List BlockLine × Cursor)
  | 0, _ => none
  | fuel + 1, cursor =>
    if cursor.column ≠ indent || cursor.rest.isEmpty then some ([], cursor)
    else do
      let (text, ending) := cursor.takeWhile fun _ => true
      let lineEnd := (lineEnd? ending.rest).map Prod.fst
      let start := if lineEnd.isSome then ending.next else ending
      let (further, _, next) ← emptyLines? (some indent) 0 start
      let (lines, after) ← blockLines? indent fuel next
      some (⟨text, lineEnd, further⟩ :: lines, after)

/-- Indentation of a block without a given one: that of its first line with text or
of a deeper empty line before it, and at least `least`. -/
def foundIndent (least deepest : Nat) : Nat :=
  max (max deepest least) 1

/-- A word as a block of lines, read from behind its mark within a collection whose
lines begin at column `outer`, if there is one. -/
def block? (folded : Bool) (outer : Option Nat) (cursor : Cursor) :
    Option (List Char × Cursor) := do
  let (head, width) := BlockHead.read cursor.rest
  let start ← (cursor.skip width).nextLine?
  let given := head.depth.map (outer.getD 0 + ·)
  let (leading, deepest, first) ← emptyLines? given 0 start
  let indent := given.getD (foundIndent (outer.elim 0 (· + 1)) deepest)
  let (lines, after) ← blockLines? indent (first.rest.length + 1) first
  -- Empty lines before the first line with text count like those after the last one.
  if lines.isEmpty then some (if head.chomping = .keep then leading else [], after)
  else some (leading ++ BlockLine.join folded head.chomping lines, after)

end Handover.Document.Yaml
