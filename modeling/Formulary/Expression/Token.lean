import Formulary.Expression.Basic
import Formulary.Number.Reading
import Formulary.Text.Identifier

/-!
# Tokens of expressions

`tokens?` cuts the text of an expression into numerals, names, quoted texts and punctuation. A
token is as long as possible. Blanks, comments and joined lines between tokens are dropped; a line
end counts only outside of brackets.
-/

namespace Formulary

open Formulary.Text Formulary.Number

/-- The tokens of expressions. -/
inductive Token where
  | integer (n : Nat)
  | decimal (coefficient : Nat) (exponent : Int)
  | imaginary (coefficient : Nat) (exponent : Int)
  | text (s : String)
  | name (s : String)
  | word (s : String)
  | sign (s : String)
  | lineEnd
  deriving Repr, DecidableEq

namespace Token

/-- The words of the language; no name is spelled like one of them. -/
def languageWords : List String :=
  ["False", "None", "True", "and", "as", "assert", "async", "await", "break", "class", "continue",
   "def", "del", "elif", "else", "except", "finally", "for", "from", "global", "if", "import", "in",
   "is", "lambda", "nonlocal", "not", "or", "pass", "raise", "return", "try", "while", "with",
   "yield"]

/-- The punctuation of the language, longer signs before their beginnings. -/
def signs : List String :=
  ["...", "**", "//", "<<", ">>", "<=", ">=", "==", "!=", "->", ":=",
   "+", "-", "*", "/", "%", "@", "&", "|", "~", "<", ">", "(", ")", "[", "]",
   "\x7b", "\x7d", ",", ":", ".", ";", "="]

/--
Whether a character may continue a name; what lies beyond ASCII is checked once the name is
complete.
-/
def continuesName (c : Char) : Bool := c.isAlphanum || c == '_' || 128 ≤ c.toNat

/-- Whether a complete name is one identifier. -/
def isIdentifier : List Char → Bool
  | [] => false
  | c :: rest => isIdentifierStart c && rest.all isIdentifierContinue

/-- The value of a digit below a base. -/
def digitBelow? (base : Nat) (c : Char) : Option Nat :=
  let d? :=
    if c.isDigit then some (c.toNat - '0'.toNat)
    else if 'a' ≤ c ∧ c ≤ 'f' then some (c.toNat - 'a'.toNat + 10)
    else if 'A' ≤ c ∧ c ≤ 'F' then some (c.toNat - 'A'.toNat + 10)
    else none
  d?.filter (· < base)

/--
The value of digits in a base, with single underscores allowed before digits, continuing from `n`;
the flag says whether any digit was read.
-/
def takeBaseDigits (base n : Nat) (any : Bool) : List Char → Nat × Bool × List Char
  | [] => (n, any, [])
  | [c] =>
    match digitBelow? base c with
    | some d => (base * n + d, true, [])
    | none => (n, any, [c])
  | c :: c' :: rest =>
    match digitBelow? base c with
    | some d => takeBaseDigits base (base * n + d) true (c' :: rest)
    | none =>
      if c = '_' then
        match digitBelow? base c' with
        | some d => takeBaseDigits base (base * n + d) true rest
        | none => (n, any, c :: c' :: rest)
      else (n, any, c :: c' :: rest)

/-- Words that may follow a numeral without a blank between. -/
def followsNumeral (s : List Char) : Bool :=
  ["and", "else", "for", "if", "in", "is", "or", "not"].any fun w => w.toList.isPrefixOf s

/-- A numeral is complete unless a name begins right after it. -/
def endsNumeral (s : List Char) : Bool :=
  match s with
  | [] => true
  | c :: _ => !continuesName c || followsNumeral s

/-- The numeral at the beginning of a text, and what follows. -/
def takeNumeral? (s : List Char) : Option (Token × List Char) := do
  let based (base : Nat) (rest : List Char) : Option (Token × List Char) :=
    match takeBaseDigits base 0 false rest with
    | (n, true, rest) => if endsNumeral rest then some (.integer n, rest) else none
    | _ => none
  match s with
  | '0' :: c :: rest =>
    if c = 'x' ∨ c = 'X' then based 16 rest
    else if c = 'o' ∨ c = 'O' then based 8 rest
    else if c = 'b' ∨ c = 'B' then based 2 rest
    else plain s
  | _ => plain s
where
  /-- A numeral in base ten. -/
  plain (s : List Char) : Option (Token × List Char) := do
    let (n, e, rest) ← takeDecimal? s
    let written := s.take (s.length - rest.length)
    let whole := written.all fun c => c.isDigit || c == '_'
    match rest with
    | c :: rest' =>
      if c = 'j' ∨ c = 'J' then
        if endsNumeral rest' then some (.imaginary n e, rest') else none
      else finish n e whole written rest
    | [] => finish n e whole written rest
  /--
  A numeral without an imaginary unit: whole ones other than zero have no leading zeros and a bounded
  length.
  -/
  finish (n : Nat) (e : Int) (whole : Bool) (written rest : List Char) :
      Option (Token × List Char) :=
    if !endsNumeral rest then none
    else if !whole then some (.decimal n e, rest)
    else if written.head? = some '0' ∧ n ≠ 0 then none
    else if n ≠ 0 ∧ maxIntegerDigits < (written.filter Char.isDigit).length then none
    else some (.integer n, rest)

/-- The text between quotes that begins after an opening quote, and what follows the closing one. -/
def takeQuoted? (quote : Char) : List Char → Option (List Char × List Char)
  | [] => none
  | '\\' :: c :: rest => (takeQuoted? quote rest).map fun (s, rest) => (escaped c ++ s, rest)
  | c :: rest =>
    if c = quote then some ([], rest)
    else if c = '\n' ∨ c = '\r' then none
    else (takeQuoted? quote rest).map fun (s, rest) => (c :: s, rest)
where
  /-- What a backslash and a character stand for. -/
  escaped : Char → List Char
    | '\n' => []
    | 'n' => ['\n'] | 't' => ['\t'] | 'r' => ['\r']
    | '\\' => ['\\'] | '\'' => ['\''] | '"' => ['"']
    | c => ['\\', c]

/-- The sign at the beginning of a text, and what follows. -/
def takePunctuation? (s : List Char) : Option (String × List Char) :=
  signs.findSome? fun p =>
    if p.toList.isPrefixOf s then some (p, s.drop p.length) else none

/-- The token at the beginning of a text that begins with no blank, and what follows. -/
def take? (s : List Char) : Option (Token × List Char) :=
  match s with
  | [] => none
  | c :: rest =>
    if c.isDigit || (c == '.' && rest.head?.any Char.isDigit) then takeNumeral? s
    else if c = '\'' ∨ c = '"' then
      (takeQuoted? c rest).map fun (t, rest) => (.text (String.ofList t), rest)
    else if continuesName c then
      let written := s.takeWhile continuesName
      let t := String.ofList written
      if !isIdentifier written then none
      else some (if languageWords.contains t then .word t else .name t, s.dropWhile continuesName)
    else (takePunctuation? s).map fun (p, rest) => (.sign p, rest)

/-- The deepest nesting of brackets. -/
def maxNesting : Nat := 200

/-- How many brackets are open after a token; `none` if there are too many or too few. -/
def nestingAfter? (depth : Nat) : Token → Option Nat
  | .sign s =>
    if s = "(" ∨ s = "[" ∨ s = "\x7b" then if depth < maxNesting then some (depth + 1) else none
    else if s = ")" ∨ s = "]" ∨ s = "\x7d" then if depth = 0 then none else some (depth - 1)
    else some depth
  | _ => some depth

/--
The tokens of a text. `depth` counts the brackets that are open, and `indented` says that blanks
stand at the beginning of a line that has no token yet, where none are allowed outside of brackets.
-/
def tokensFrom? (lineStart indented : Bool) (depth : Nat) :
    (fuel : Nat) → List Char → Option (List Token)
  | 0, _ => none
  | _ + 1, [] => if depth = 0 then some [] else none
  | fuel + 1, c :: rest =>
    if c = ' ' ∨ c = '\t' then tokensFrom? lineStart (indented || lineStart) depth fuel rest
    else if c = '\x0c' then tokensFrom? lineStart false depth fuel rest
    else if c = '#' then
      tokensFrom? lineStart indented depth fuel (rest.dropWhile fun c => c != '\n' && c != '\r')
    else if c = '\n' ∨ c = '\r' then
      if lineStart || depth != 0 then tokensFrom? lineStart false depth fuel rest
      else (tokensFrom? true false depth fuel rest).map (.lineEnd :: ·)
    else if c = '\\' then
      match rest with
      | '\n' :: rest => tokensFrom? lineStart indented depth fuel rest
      | _ => none
    else if lineStart && indented then none
    else match take? (c :: rest) with
      | none => none
      | some (t, rest) =>
        match nestingAfter? depth t with
        | none => none
        | some depth => (tokensFrom? false false depth fuel rest).map (t :: ·)

end Token

/-- The tokens of the text of an expression; `none` if some part of it is no token. -/
def tokens? (s : List Char) : Option (List Token) := Token.tokensFrom? true false 0 (s.length + 1) s

end Formulary
