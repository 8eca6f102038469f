/-!
# Places in a document

A document is read character by character, and what a character means depends on its line and
column. A `Cursor` is the part of the text that is still to be read together with the place where
it begins. Ends of lines that are written in several ways are made one character first
(`unifyBreaks`).
-/

namespace Formulary.Document

/-- The characters that a document may hold. -/
def isAllowed (c : Char) : Bool :=
  let n := c.toNat
  n = 0x9 || n = 0xA || n = 0xD || (0x20 ≤ n && n ≤ 0x7E) || n = 0x85 ||
    (0xA0 ≤ n && n ≤ 0xFFFD) || 0x10000 ≤ n

/-- A text with one character for each of the usual ways to end a line. -/
def unifyBreaks : List Char → List Char
  | [] => []
  | '\r' :: '\n' :: rest => '\n' :: unifyBreaks rest
  | c :: rest => (if c = '\r' ∨ c = '\x85' then '\n' else c) :: unifyBreaks rest

/-- The ends of lines. -/
def isBreak (c : Char) : Bool := c == '\n' || c == '\u2028' || c == '\u2029'

/-- Spaces and tabs. -/
def isBlank (c : Char) : Bool := c == ' ' || c == '\t'

/-- Blanks and ends of lines. -/
def isGap (c : Char) : Bool := isBlank c || isBreak c

/-- Whether the first character of a text, if there is one, is of a kind. -/
def endsOr (kind : Char → Bool) : List Char → Bool
  | [] => true
  | c :: _ => kind c

/-- Whether a line with the beginning or the end of a document comes next. -/
def isMarker : List Char → Bool
  | '-' :: '-' :: '-' :: rest => endsOr isGap rest
  | '.' :: '.' :: '.' :: rest => endsOr isGap rest
  | _ => false

/-- What is still to be read, and the line and column where it begins. -/
structure Cursor where
  rest : List Char
  line : Nat
  column : Nat

namespace Cursor

/-- The place after one character; a byte order mark takes no column. -/
def next (p : Cursor) : Cursor :=
  match p.rest with
  | [] => p
  | c :: rest =>
    if isBreak c then ⟨rest, p.line + 1, 0⟩
    else ⟨rest, p.line, if c = '\uFEFF' then p.column else p.column + 1⟩

/-- The place after some characters. -/
def skip (p : Cursor) : Nat → Cursor
  | 0 => p
  | n + 1 => p.next.skip n

/-- The characters of a kind that come next, and the place after them. -/
def span (p : Cursor) (kind : Char → Bool) : List Char × Cursor :=
  let cs := p.rest.takeWhile kind
  (cs, p.skip cs.length)

/-- The place after the characters of a kind that come next. -/
def skipWhile (p : Cursor) (kind : Char → Bool) : Cursor := (p.span kind).2

/-- Whether a given character comes next. -/
def sees (p : Cursor) (c : Char) : Bool := p.rest.head? == some c

/-- Whether a character of a kind comes next. -/
def seesAny (p : Cursor) (kind : Char → Bool) : Bool := p.rest.head?.any kind

/-- The place at the end of the line. -/
def toLineEnd (p : Cursor) : Cursor := p.skipWhile fun c => !isBreak c

/-- The place after spaces and a comment at the end of a line. -/
def skipComment (p : Cursor) : Cursor :=
  let p := p.skipWhile (· == ' ')
  if p.sees '#' then p.toLineEnd else p

end Cursor
end Formulary.Document
