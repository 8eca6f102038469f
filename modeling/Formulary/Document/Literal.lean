import Formulary.Document.Cursor
import Formulary.Document.Scalar
import Formulary.Number.Reading

/-!
# The texts of scalars

A scalar is written as it is (`plainText`), in quotes (`quotedText`), or as a block of lines
(`blockText`). A text that runs over several lines is folded: one end of a line stands for a space,
and of several the first one is dropped. Each function gives the text and the place after it.
-/

namespace Formulary.Document

/-- The characters that end an unquoted text between brackets. -/
def isFlowMark (c : Char) : Bool := [',', '?', '[', ']', '\x7b', '\x7d'].contains c

/-- Whether what follows a colon makes it the end of a key. -/
def endsKey (inFlow : Bool) : List Char → Bool :=
  endsOr fun c => isGap c || (inFlow && [',', '[', ']', '\x7b', '\x7d'].contains c)

/-- A part of an unquoted text without blanks. -/
def plainPart (inFlow : Bool) : List Char → List Char
  | [] => []
  | c :: rest =>
    if isGap c || (c == ':' && endsKey inFlow rest) || (inFlow && isFlowMark c) then []
    else c :: plainPart inFlow rest

/-- What stands between two parts of an unquoted text. -/
structure Gap where
  /-- the text that it is folded to; empty if the text ends here -/
  text : List Char
  /-- whether a line ends in it -/
  crossesLine : Bool
  after : Cursor

/-- A row of breaks as it is folded. -/
def folded : List Char → List Char
  | [] => []
  | [c] => if c = '\n' then [' '] else [c]
  | c :: rest => if c = '\n' then rest else c :: rest

/-- Breaks and spaces up to something else; nothing if a marker comes before that. -/
def breaksThrough : Nat → Cursor → Option (List Char) × Cursor
  | 0, p => (some [], p)
  | n + 1, p =>
    match p.rest with
    | [] => (some [], p)
    | c :: _ =>
      if c = ' ' then breaksThrough n p.next
      else if !isBreak c then (some [], p)
      else if isMarker p.next.rest then (none, p.next)
      else
        let (breaks, q) := breaksThrough n p.next
        (breaks.map (c :: ·), q)

/-- The gap at a place in an unquoted text. -/
def gapAt (p : Cursor) : Gap :=
  let (spaces, q) := p.span (· == ' ')
  if q.seesAny isBreak then
    let (breaks, q) := breaksThrough q.rest.length q
    ⟨folded (breaks.getD []), true, q⟩
  else ⟨spaces, false, q⟩

/--
The parts of an unquoted text with the gaps between them, and whether the last gap crosses a line.
-/
def plainParts (inFlow : Bool) (margin : Nat) : Nat → Bool → Cursor → List Char × Bool × Cursor
  | 0, crossed, p => ([], crossed, p)
  | n + 1, crossed, p =>
    let part := if p.sees '#' then [] else plainPart inFlow p.rest
    if part.isEmpty then ([], crossed, p) else
      let gap := gapAt (p.skip part.length)
      if gap.text.isEmpty || gap.after.sees '#' || (!inFlow && gap.after.column < margin) then
        (part, gap.crossesLine, gap.after)
      else
        let (more, crossed, q) := plainParts inFlow margin n gap.crossesLine gap.after
        (if more.isEmpty then part else part ++ gap.text ++ more, crossed, q)

/--
An unquoted text that goes on over lines that begin at the margin or behind it, whether it ends at
the beginning of a line, and the place after it.
-/
def plainText (inFlow : Bool) (margin : Nat) (p : Cursor) : List Char × Bool × Cursor :=
  plainParts inFlow margin p.rest.length false p

/-- Breaks inside quotes up to something that is no blank; a marker may not come before that. -/
def quotedBreaks : Nat → Cursor → Except Fault (List Char × Cursor)
  | 0, p => .ok ([], p)
  | n + 1, p =>
    if isMarker p.rest then .error .malformed else
      let q := p.skipWhile isBlank
      match q.rest with
      | c :: _ =>
        if isBreak c then do
          let (breaks, q) ← quotedBreaks n q.next
          return (c :: breaks, q)
        else return ([], q)
      | [] => return ([], q)

/-- What a letter after a backslash stands for. -/
def escape? : Char → Option Char
  | '0' => some '\x00'
  | 'a' => some '\x07'
  | 'b' => some '\x08'
  | 't' | '\t' => some '\t'
  | 'n' => some '\n'
  | 'v' => some '\x0b'
  | 'f' => some '\x0c'
  | 'r' => some '\r'
  | 'e' => some '\x1b'
  | ' ' => some ' '
  | '"' => some '"'
  | '\\' => some '\\'
  | '/' => some '/'
  | 'N' => some '\x85'
  | '_' => some '\xa0'
  | 'L' => some '\u2028'
  | 'P' => some '\u2029'
  | _ => none

/-- The number of hexadecimal digits after a letter that announces a code point. -/
def escapeDigits? : Char → Option Nat
  | 'x' => some 2
  | 'u' => some 4
  | 'U' => some 8
  | _ => none

/-- What an escape stands for, from the character after the backslash on. -/
def escaped (p : Cursor) : Except Fault (List Char × Cursor) :=
  match p.rest with
  | [] => .error .malformed
  | c :: rest =>
    match escape? c, escapeDigits? c with
    | some d, _ => .ok ([d], p.next)
    | none, some n =>
      let ds := rest.take n
      if ds.length = n ∧ ds.all isHexDigit then
        let code := natInBase 16 ds
        if 0x10FFFF < code then .error .invalidValue
        else if code.isValidChar then .ok ([Char.ofNat code], p.skip (n + 1))
        else .error .malformed
      else .error .malformed
    | none, none =>
      if isBreak c then quotedBreaks p.rest.length p.next else .error .malformed

/-- The text up to the closing quote. -/
def quotedParts (double : Bool) : Nat → Cursor → Except Fault (List Char × Cursor)
  | 0, _ => .error .malformed
  | n + 1, p =>
    match p.rest with
    | [] => .error .malformed
    | c :: rest =>
      let go (piece : List Char) (q : Cursor) : Except Fault (List Char × Cursor) := do
        let (more, q) ← quotedParts double n q
        return (piece ++ more, q)
      if double && c == '"' then .ok ([], p.next)
      else if !double && c == '\'' then
        if rest.head? = some '\'' then go ['\''] (p.skip 2) else .ok ([], p.next)
      else if double && c == '\\' then do
        let (piece, q) ← escaped p.next
        go piece q
      else if isGap c then
        let (blanks, q) := p.span isBlank
        match q.rest with
        | d :: _ =>
          if isBreak d then do
            let (breaks, q) ← quotedBreaks q.rest.length q.next
            go (folded (d :: breaks)) q
          else go blanks q
        | [] => .error .malformed
      else go [c] p.next

/-- The text in quotes that begins with a quote at a place. -/
def quotedText (double : Bool) (p : Cursor) : Except Fault (List Char × Cursor) :=
  quotedParts double p.rest.length p.next

/-- What becomes of the ends of lines at the end of a block. -/
inductive Chomping where
  | strip
  | clip
  | keep
  deriving DecidableEq

/-- A sign that says what becomes of the last ends of lines. -/
def chomping? : Char → Option Chomping
  | '+' => some .keep
  | '-' => some .strip
  | _ => none

/-- The chomping and indentation that the head of a block asks for, in either order. -/
def blockHead (p : Cursor) : Except Fault (Chomping × Option Nat × Cursor) :=
  let indentation (p : Cursor) : Except Fault (Option Nat × Cursor) :=
    match p.rest with
    | c :: _ =>
      if !c.isDigit then .ok (none, p)
      else if c = '0' then .error .malformed
      else .ok (some (c.toNat - 48), p.next)
    | [] => .ok (none, p)
  match p.rest.head?.bind chomping? with
  | some chomping => do
    let (indent, p) ← indentation p.next
    return (chomping, indent, p)
  | none => do
    let (indent, p) ← indentation p
    match indent, p.rest.head?.bind chomping? with
    | some _, some chomping => return (chomping, indent, p.next)
    | _, _ => return (.clip, indent, p)

/-- Empty lines before a block whose indentation is not given, and the widest of them. -/
def leadingBreaks : Nat → Nat → Cursor → List Char × Nat × Cursor
  | 0, widest, p => ([], widest, p)
  | n + 1, widest, p =>
    match p.rest with
    | [] => ([], widest, p)
    | c :: _ =>
      if c = ' ' then leadingBreaks n (max widest p.next.column) p.next
      else if isBreak c then
        let (breaks, widest, q) := leadingBreaks n widest p.next
        (c :: breaks, widest, q)
      else ([], widest, p)

/-- Empty lines inside a block, up to the margin of the next line. -/
def blockBreaks (margin : Nat) : Nat → Cursor → List Char × Cursor
  | 0, p => ([], p)
  | n + 1, p =>
    let spaces := (p.rest.takeWhile (· == ' ')).length
    let p := p.skip (min spaces (margin - p.column))
    match p.rest with
    | c :: _ =>
      if isBreak c then
        let (breaks, q) := blockBreaks margin n p.next
        (c :: breaks, q)
      else ([], p)
    | [] => ([], p)

/-- The lines of a block from its first one on, the breaks before it given. -/
def blockLines (fold : Bool) (chomping : Chomping) (margin : Nat) :
    Nat → List Char → Cursor → List Char × Cursor
  | 0, _, p => ([], p)
  | n + 1, breaks, p =>
    let (line, q) := p.span fun c => !isBreak c
    let last := (q.rest.head?).toList
    let (following, r) := blockBreaks margin q.rest.length q.next
    if r.column = margin ∧ !r.rest.isEmpty then
      let between :=
        if fold && last == ['\n'] && !p.seesAny isBlank && !r.seesAny isBlank then
          if following.isEmpty then [' '] else []
        else last
      let (more, r) := blockLines fold chomping margin n following r
      (breaks ++ line ++ between ++ more, r)
    else
      let ending := match chomping with
        | .strip => []
        | .clip => last
        | .keep => last ++ following
      (breaks ++ line ++ ending, r)

/--
A block of lines that begins with its sign at a place; `least` is the least margin of its lines.
-/
def blockText (fold : Bool) (least : Nat) (p : Cursor) : Except Fault (List Char × Cursor) := do
  let (chomping, indent, p) ← blockHead p.next
  if !endsOr (fun c => c == ' ' || isBreak c) p.rest then throw .malformed
  let p := p.skipComment
  if !endsOr isBreak p.rest then throw .malformed
  let p := p.next
  let least := max 1 least
  let (breaks, margin, p) := match indent with
    | some n =>
      let margin := least + n - 1
      let (breaks, p) := blockBreaks margin p.rest.length p
      (breaks, margin, p)
    | none =>
      let (breaks, widest, p) := leadingBreaks p.rest.length 0 p
      (breaks, max least widest, p)
  if p.column = margin ∧ !p.rest.isEmpty then
    return blockLines fold chomping margin p.rest.length breaks p
  else return (if chomping = .keep then breaks else [], p)

end Formulary.Document
