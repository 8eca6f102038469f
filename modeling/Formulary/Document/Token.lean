import Formulary.Document.Literal

/-!
# Tokens of a document

A document is cut into tokens that make its nesting explicit: a collection that is written by
indentation begins and ends with a token of its own, and a token `key` stands in front of each key.
Whether something is a key shows only at the colon behind it; until then the place where the key
would begin is kept (`KeyPlace`), and the token is put in there afterwards.
-/

namespace Formulary.Document

/-- A token of a document. -/
inductive Token where
  | version (major : Nat)
  | tagHandle (handle : String)
  | otherDirective
  | documentStart
  | documentEnd
  | blockSequence
  | blockMapping
  | blockEnd
  | flowSequence
  | flowSequenceEnd
  | flowMapping
  | flowMappingEnd
  | blockEntry
  | flowEntry
  | key
  | value
  | reference (name : String)
  | anchor (name : String)
  /-- a tag that names a standard kind, or none for the mark that leaves the kind open -/
  | tag (kind : Option String)
  | scalar (text : List Char) (isPlain : Bool)
  deriving Repr, DecidableEq

/-- A place where a key may have begun. -/
structure KeyPlace where
  /-- the number of tokens before it -/
  position : Nat
  /-- whether nothing but a key can stand there -/
  required : Bool
  line : Nat
  column : Nat

/-- The longest key that may stand in front of a colon without a mark of its own. -/
def maxKeyLength : Nat := 1024

/-- Whether a candidate is too far away to be a key: on another line, or too long. -/
def KeyPlace.isStale (k : KeyPlace) (p : Cursor) : Bool :=
  k.line != p.line || maxKeyLength < p.column - k.column

/-- How far a document is read. -/
structure Scan where
  place : Cursor
  /-- the tokens so far, newest first -/
  tokens : List Token
  /-- the columns of the open collections that are written by indentation, innermost first -/
  columns : List Nat
  /-- whether a key may begin here -/
  keyAllowed : Bool
  /-- where a key may have begun between the innermost brackets -/
  candidate : Option KeyPlace
  /-- the same for the brackets around them, innermost first -/
  outer : List (Option KeyPlace)

namespace Scan

/-- Whether brackets are open. -/
def inFlow (s : Scan) : Bool := !s.outer.isEmpty

/-- One more token. -/
def emit (s : Scan) (t : Token) : Scan := { s with tokens := t :: s.tokens }

/-- After some more characters. -/
def skip (s : Scan) (n : Nat) : Scan := { s with place := s.place.skip n }

/-- Without the innermost candidate for a key, unless it has to be one. -/
def dropCandidate (s : Scan) : Except Fault Scan :=
  if s.candidate.any (·.required) then .error .malformed else .ok { s with candidate := none }

/-- Without the candidates that are too far away; one that has to be a key may not be. -/
def dropStale (s : Scan) : Except Fault Scan :=
  let stale (k : Option KeyPlace) : Bool := k.any (·.isStale s.place)
  let keep (k : Option KeyPlace) : Option KeyPlace := if stale k then none else k
  if (s.candidate :: s.outer).any fun k => stale k && k.any (·.required) then .error .malformed
  else .ok { s with candidate := keep s.candidate, outer := s.outer.map keep }

/-- Marks this place as a candidate, if a key may begin here. -/
def markCandidate (s : Scan) : Except Fault Scan := do
  if !s.keyAllowed then return s
  let s ← s.dropCandidate
  let required := !s.inFlow && s.columns.head? == some s.place.column
  return { s with candidate := some ⟨s.tokens.length, required, s.place.line, s.place.column⟩ }

/-- The open columns up to the given one, and how many deeper ones are closed. -/
def splitColumns (deeper : Nat → Bool) : List Nat → Nat × List Nat
  | [] => (0, [])
  | c :: cs => if deeper c then let (n, cs) := splitColumns deeper cs; (n + 1, cs) else (0, c :: cs)

/--
Closes the collections whose columns are too deep; between brackets indentation means nothing.
-/
def close (s : Scan) (deeper : Nat → Bool) : Scan :=
  if s.inFlow then s else
    let (n, columns) := splitColumns deeper s.columns
    { s with columns, tokens := List.replicate n .blockEnd ++ s.tokens }

/-- Whether a column lies deeper than all open ones. -/
def isDeeper (s : Scan) (column : Nat) : Bool := s.columns.head?.all (· < column)

/-- Opens a collection at the column that is read, if it lies deeper than all open ones. -/
def openBlock (s : Scan) (t : Token) : Scan :=
  if s.isDeeper s.place.column then { s.emit t with columns := s.place.column :: s.columns } else s

/-- Skips spaces, comments and ends of lines; behind the end of a line a key may begin. -/
def skipGaps : Nat → Scan → Scan
  | 0, s => s
  | n + 1, s =>
    let p := s.place.skipComment
    if p.seesAny isBreak then
      skipGaps n { s with place := p.next, keyAllowed := s.keyAllowed || !s.inFlow }
    else { s with place := p }

/-- At the next token, with the collections closed that end before it. -/
def toToken (s : Scan) : Except Fault Scan := do
  let s := skipGaps (s.place.rest.length + 1) s
  let s ← s.dropStale
  return s.close (s.place.column < ·)

/-- A token of one character with which brackets open. -/
def openFlow (s : Scan) (t : Token) : Except Fault Scan := do
  let s ← s.markCandidate
  return { s.emit t with
    place := s.place.next, keyAllowed := true, candidate := none, outer := s.candidate :: s.outer }

/-- A token of one character with which brackets close. -/
def closeFlow (s : Scan) (t : Token) : Except Fault Scan := do
  let s ← s.dropCandidate
  match s.outer with
  | [] => throw .malformed
  | candidate :: outer =>
    return { s.emit t with place := s.place.next, keyAllowed := false, candidate, outer }

/-- The comma between entries. -/
def comma (s : Scan) : Except Fault Scan := do
  let s ← { s with keyAllowed := true }.dropCandidate
  return { s.emit .flowEntry with place := s.place.next }

/-- The mark of an element or of a long key in a collection that is written by indentation. -/
def blockMark (s : Scan) (collection mark : Token) (keyAllowed : Bool) : Except Fault Scan := do
  if !s.inFlow && !s.keyAllowed then throw .malformed
  let s := if s.inFlow then s else s.openBlock collection
  let s ← { s with keyAllowed }.dropCandidate
  return { s.emit mark with place := s.place.next }

/-- The colon in front of a value. -/
def colon (s : Scan) : Except Fault Scan :=
  match s.candidate with
  | some k =>
    let back := s.tokens.length - k.position
    let tokens := s.tokens.insertIdx back .key
    let s := { s with candidate := none, keyAllowed := false }
    let s :=
      if !s.inFlow && s.isDeeper k.column then
        { s with
          tokens := tokens.insertIdx (back + 1) .blockMapping, columns := k.column :: s.columns }
      else { s with tokens }
    .ok { s.emit .value with place := s.place.next }
  | none => s.blockMark .blockMapping .value !s.inFlow

/-- A token that may be the beginning of a key. -/
def content (s : Scan) (t : Token) (p : Cursor) : Except Fault Scan := do
  let s ← s.markCandidate
  return { s.emit t with place := p, keyAllowed := false }

/-- The letters of names of anchors, tags and directives. -/
def isNameChar (c : Char) : Bool :=
  c.isDigit || ('a' ≤ c && c ≤ 'z') || ('A' ≤ c && c ≤ 'Z') || c == '-' || c == '_'

/-- The name of an anchor or of a reference to one, behind its mark. -/
def anchorName (p : Cursor) : Except Fault (String × Cursor) :=
  let (name, q) := p.span isNameChar
  let mayFollow (c : Char) : Bool :=
    isGap c || ['?', ':', ',', ']', '\x7d', '%', '@', '\x60'].contains c
  if name.isEmpty || !endsOr mayFollow q.rest then .error .malformed
  else .ok (String.ofList name, q)

/-- A tag: a mark alone, or one of the standard kinds by its short name. -/
def tagKind (p : Cursor) : Except Fault (Option String × Cursor) :=
  match p.next.rest with
  | '!' :: _ =>
    let (kind, q) := (p.skip 2).span isNameChar
    if kind.isEmpty || !endsOr (fun c => c == ' ' || isBreak c) q.rest then .error .malformed
    else .ok (some (String.ofList kind), q)
  | rest =>
    if endsOr (fun c => c == ' ' || isBreak c) rest then .ok (none, p.next) else .error .malformed

/-- Whether a line ends at a place but for spaces and a comment. -/
def endsLine (p : Cursor) : Bool := endsOr isBreak p.skipComment.rest

/-- The number of a version: two numbers with a point between them. -/
def versionNumber (p : Cursor) : Except Fault (Nat × Cursor) :=
  let (major, p) := p.span Char.isDigit
  let (minor, q) := p.next.span Char.isDigit
  let isEnded := endsOr (fun c => c == ' ' || isBreak c) q.rest
  if major.isEmpty || minor.isEmpty || !p.sees '.' || !isEnded then .error .malformed
  else .ok (Number.natOfDigits 0 major, q)

/-- A handle for tags and what it stands for. -/
def handle (p : Cursor) : Except Fault (String × Cursor) :=
  let (handle, p) := p.span (· != ' ')
  let (base, q) := (p.skipWhile (· == ' ')).span fun c => !(c == ' ' || isBreak c)
  let isHandle : Bool := match handle with
    | ['!'] => true
    | '!' :: name => name.getLast? == some '!' && name.dropLast.all isNameChar
    | _ => false
  if !isHandle || base.isEmpty then .error .malformed else .ok (String.ofList handle, q)

/-- A line with a directive. -/
def directive (s : Scan) : Except Fault Scan := do
  let s ← (s.close fun _ => true).dropCandidate
  let (name, p) := s.place.next.span isNameChar
  if name.isEmpty || !endsOr (fun c => c == ' ' || isBreak c) p.rest then throw .malformed
  let argument := p.skipWhile (· == ' ')
  let (t, q) ← match String.ofList name with
    | "YAML" => do
      let (major, q) ← versionNumber argument
      pure (Token.version major, q)
    | "TAG" => do
      let (handle, q) ← handle argument
      pure (Token.tagHandle handle, q)
    | _ => pure (Token.otherDirective, p.toLineEnd)
  if !endsLine q then throw .malformed
  return { s.emit t with place := q.skipComment, keyAllowed := false }

/-- A line that begins or ends a document. -/
def marker (s : Scan) (t : Token) : Except Fault Scan := do
  let s ← (s.close fun _ => true).dropCandidate
  return { s.emit t with place := s.place.skip 3, keyAllowed := false }

/-- An unquoted scalar. -/
def plainScalar (s : Scan) : Except Fault Scan := do
  let margin := (s.columns.head?.map (· + 1)).getD 0
  let (text, crossed, p) := plainText s.inFlow margin s.place
  let s ← s.content (.scalar text true) p
  return { s with keyAllowed := crossed }

/-- A scalar that is a block of lines. -/
def blockScalar (s : Scan) (fold : Bool) : Except Fault Scan := do
  let s ← s.dropCandidate
  let least := (s.columns.head?.map (· + 1)).getD 0
  let (text, p) ← blockText fold least s.place
  return { s.emit (.scalar text false) with place := p, keyAllowed := true }

/-- The characters that mean something of their own where a token begins. -/
def marks : List Char :=
  ['-', '?', ':', ',', '[', ']', '\x7b', '\x7d', '#', '&', '*', '!', '|', '>', '\'', '"', '%', '@',
    '\x60']

/--
Whether an unquoted scalar may begin with a character; some marks may if a blank does not follow.
-/
def mayBeginPlain (inFlow : Bool) (c : Char) (rest : List Char) : Bool :=
  if c = '-' ∨ (!inFlow ∧ (c = '?' ∨ c = ':')) then !endsOr isGap rest
  else !isGap c && !marks.contains c

/-- The token that begins with a character. -/
def token (s : Scan) (c : Char) (rest : List Char) : Except Fault Scan :=
  if s.place.column = 0 ∧ c = '%' then s.directive
  else if s.place.column = 0 ∧ isMarker s.place.rest then
    s.marker (if c = '-' then .documentStart else .documentEnd)
  else match c with
    | '[' => s.openFlow .flowSequence
    | ']' => s.closeFlow .flowSequenceEnd
    | '\x7b' => s.openFlow .flowMapping
    | '\x7d' => s.closeFlow .flowMappingEnd
    | ',' => s.comma
    | _ =>
      if c = '-' ∧ endsOr isGap rest then s.blockMark .blockSequence .blockEntry true
      else if c = '?' ∧ (s.inFlow ∨ endsOr isGap rest) then s.blockMark .blockMapping .key !s.inFlow
      else if c = ':' ∧ (s.inFlow ∨ endsOr isGap rest) then s.colon
      else match c with
        | '*' => do
          let (name, p) ← anchorName s.place.next
          s.content (.reference name) p
        | '&' => do
          let (name, p) ← anchorName s.place.next
          s.content (.anchor name) p
        | '!' => do
          let (kind, p) ← tagKind s.place
          s.content (.tag kind) p
        | '"' => do
          let (text, p) ← quotedText true s.place
          s.content (.scalar text false) p
        | '\'' => do
          let (text, p) ← quotedText false s.place
          s.content (.scalar text false) p
        | _ =>
          if !s.inFlow ∧ (c = '|' ∨ c = '>') then s.blockScalar (c == '>')
          else if mayBeginPlain s.inFlow c rest then s.plainScalar
          else .error .malformed

/-- All tokens from here on. -/
def run : Nat → Scan → Except Fault (List Token)
  | 0, _ => .error .malformed
  | n + 1, s => do
    let s ← s.toToken
    match s.place.rest with
    | [] =>
      let s ← (s.close fun _ => true).dropCandidate
      return s.tokens.reverse
    | c :: rest => run n (← s.token c rest)

end Scan

/-- The tokens of a document. -/
def Token.ofText (text : String) : Except Fault (List Token) :=
  if text.toList.all isAllowed then
    let cs := unifyBreaks text.toList
    let cs := if cs.head? = some '\uFEFF' then cs.tail else cs
    Scan.run (cs.length + 1) ⟨⟨cs, 0, 0⟩, [], [], true, none, []⟩
  else .error .malformed

end Formulary.Document
