import Handover.Document.Yaml.Word.Gap

/-!
# Plain words

A word without marks.  It ends before a colon or a number sign with a gap on the
right side, before a delimiter of the surrounding flow collection, and where a
line is indented too little.
-/

namespace Handover.Document.Yaml

/-- A plain word may begin here. -/
def startsPlain (flow : Bool) : List Char → Bool
  | [] => false
  | c :: rest =>
    if c = '-' then !(rest.head?.any isSpace)
    else if c = '?' || c = ':' then !flow && !atGap rest
    else !(isSpace c || isBreak c || indicators.contains c)

/-- A character of a plain word that would be a colon before a delimiter of a
flow collection. -/
def isStrayColon (flow : Bool) (c : Char) (rest : List Char) : Bool :=
  flow && c = ':' && rest.head?.any fun next => next = '?' || flowIndicators.contains next

/-- The character ends a plain word. -/
def endsPlain (flow : Bool) (c : Char) (rest : List Char) : Bool :=
  (c = ':' && atGap rest) || (flow && flowIndicators.contains c)

/-- A plain word does not go on after a gap. -/
def endsAfterGap (flow : Bool) (margin : Nat) (cursor : Cursor) : Bool :=
  cursor.isAt '#' || (!flow && cursor.column < margin) ||
    (cursor.column = 0 && atDocumentMark cursor.rest)

/-- Continues a plain word after a gap: the rest of the word, the gap behind it
and the position after that.  On a further line a tab must not stand before the
margin. -/
def plainFrom? (flow : Bool) (margin : Nat) (gap : Gap) (cursor : Cursor) :
    Option (List Char × Gap × Cursor) :=
  match _here : cursor.rest with
  | [] => some ([], gap, cursor)
  | c :: rest =>
    match gap.push? (c :: rest) with
    | some longer =>
      if gap.isBroken && c = '\t' && cursor.column < margin then none
      else plainFrom? flow margin longer cursor.next
    | none =>
      if !gap.isEmpty && endsAfterGap flow margin cursor then some ([], gap, cursor)
      else if isStrayColon flow c rest then none
      else if endsPlain flow c rest then some ([], gap, cursor)
      else
        (plainFrom? flow margin .none cursor.next).map fun (word, after) =>
          (gap.text ++ c :: word, after)
termination_by cursor.rest.length
decreasing_by all_goals exact Cursor.length_next_lt _here

/-- A plain word whose further lines begin at the margin or behind it; whether
the line ended after it; and the position. -/
def plain? (flow : Bool) (margin : Nat) (cursor : Cursor) :
    Option (List Char × Bool × Cursor) :=
  (plainFrom? flow margin .none cursor).map fun (word, gap, after) => (word, gap.isBroken, after)

end Handover.Document.Yaml
