import Formulary.Text.Printable

/-!
# Quoted text

A text between quotes as error messages show it. Single quotes are used, or double ones if the text
holds single quotes and no double ones. The quote in use, backslashes, line ends and tabs are
escaped, and so are all characters that are not printable.
-/

namespace Formulary.Text

/-- The lower-case hexadecimal digits of a number, with zeros in front up to a width. -/
def hexDigits (width n : Nat) : List Char :=
  let ds := Nat.toDigits 16 n
  List.replicate (width - ds.length) '0' ++ ds

/-- A code point as an escape of the least width that holds it. -/
def codePointEscape (n : Nat) : List Char :=
  if n < Nat.pow 2 8 then '\\' :: 'x' :: hexDigits 2 n
  else if n < Nat.pow 2 16 then '\\' :: 'u' :: hexDigits 4 n
  else '\\' :: 'U' :: hexDigits 8 n

/-- One character between quotes. -/
def quotedChar (quote c : Char) : List Char :=
  if c = quote ∨ c = '\\' then ['\\', c]
  else if c = '\n' then ['\\', 'n']
  else if c = '\t' then ['\\', 't']
  else if c = '\r' then ['\\', 'r']
  else if isPrintable c then [c]
  else codePointEscape c.toNat

/-- The quote that a text is put into. -/
def quoteFor (s : List Char) : Char := if '\'' ∈ s ∧ '"' ∉ s then '"' else '\''

/-- The text between quotes. -/
def quoted (s : String) : String :=
  let cs := s.toList
  let quote := quoteFor cs
  String.ofList (quote :: cs.flatMap (quotedChar quote) ++ [quote])

end Formulary.Text
