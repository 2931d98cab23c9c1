import Handover.Document.Yaml.Character

/-!
# Reading position

The rest of a YAML text with the place that it starts at.  Every step of reading
moves the position forward by a character or by a line end, so that a loop over
positions ends because the rest of the text becomes shorter.
-/

namespace Handover.Document.Yaml

/-- A position in a text. -/
structure Cursor where
  /-- The text from here on. -/
  rest : List Char
  /-- Lines before its own. -/
  line : Nat
  /-- Characters before it on its line. -/
  column : Nat
  /-- Octets before it on its line. -/
  offset : Nat

theorem lineEnd?_length_lt {text after : List Char} {c : Char}
    (found : lineEnd? text = some (c, after)) : after.length < text.length := by
  unfold lineEnd? at found
  split at found
  next rest =>
    obtain ⟨-, rfl⟩ : '\n' = c ∧ rest = after := by simpa using found
    simp only [List.length_cons]
    omega
  next first rest _ =>
    split at found
    next => obtain ⟨-, rfl⟩ : '\n' = c ∧ rest = after := by simpa using found
            simp
    next =>
      split at found
      next => obtain ⟨-, rfl⟩ : first = c ∧ rest = after := by simpa using found
              simp
      next => contradiction
  next => contradiction

namespace Cursor

/-- The position at the front of a text. -/
def start (text : List Char) : Cursor :=
  ⟨text, 0, 0, 0⟩

/-- Octets of a text. -/
def octetCount (text : List Char) : Nat :=
  text.foldl (fun count c => count + c.utf8Size) 0

/-- The position behind a number of characters of the same line. -/
def skip (cursor : Cursor) (count : Nat) : Cursor :=
  ⟨cursor.rest.drop count, cursor.line, cursor.column + count,
    cursor.offset + octetCount (cursor.rest.take count)⟩

theorem length_skip_le (cursor : Cursor) (count : Nat) :
    (cursor.skip count).rest.length ≤ cursor.rest.length := by
  simp [skip]

/-- The position behind the next character or line end. -/
def next (cursor : Cursor) : Cursor :=
  match lineEnd? cursor.rest with
  | some (_, after) => ⟨after, cursor.line + 1, 0, 0⟩
  | none => cursor.skip 1

theorem length_next_lt {cursor : Cursor} {c : Char} {rest : List Char}
    (here : cursor.rest = c :: rest) : cursor.next.rest.length < cursor.rest.length := by
  unfold next
  split
  next after found => exact lineEnd?_length_lt found
  next => simp [skip, here]

theorem length_next_le (cursor : Cursor) : cursor.next.rest.length ≤ cursor.rest.length := by
  cases here : cursor.rest with
  | nil => simp [next, skip, here, lineEnd?]
  | cons c rest => exact here ▸ Nat.le_of_lt (length_next_lt here)

/-- The characters of the line that have a property, and the position behind
them. -/
def takeWhile (cursor : Cursor) (accept : Char → Bool) : List Char × Cursor :=
  let taken := cursor.rest.takeWhile fun c => accept c && !isBreak c
  (taken, cursor.skip taken.length)

/-- The position behind the characters of the line that have a property. -/
def skipWhile (cursor : Cursor) (accept : Char → Bool) : Cursor :=
  (cursor.takeWhile accept).2

/-- This character comes next. -/
def isAt (cursor : Cursor) (c : Char) : Bool :=
  cursor.rest.head? = some c

/-- This character comes next, and a gap after it. -/
def atMark (cursor : Cursor) (mark : Char) : Bool :=
  cursor.isAt mark && atGap (cursor.rest.drop 1)

/-- The position behind a comment, if one begins here. -/
def skipComment (cursor : Cursor) : Cursor :=
  if cursor.isAt '#' then cursor.skipWhile fun _ => true else cursor

/-- The position on the next line, if only blanks and a comment are left on this
one. -/
def nextLine? (cursor : Cursor) : Option Cursor :=
  let ending := (cursor.skipWhile isSpace).skipComment
  match ending.rest with
  | [] => some ending
  | c :: _ => if isBreak c then some ending.next else none

end Cursor

end Handover.Document.Yaml
