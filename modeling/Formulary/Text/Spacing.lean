import Formulary.Text.Blank

/-!
# Spacing

Trimming blanks at both ends of a text, and collapsing each run of blanks to one space.
-/

namespace Formulary.Text

/-- The text without the blanks at its beginning and end. -/
def trim (s : List Char) : List Char :=
  ((s.dropWhile isBlank).reverse.dropWhile isBlank).reverse

/-- Each run of blanks replaced by one space; `afterBlank` says that a run has begun. -/
def collapse (afterBlank : Bool) : List Char → List Char
  | [] => []
  | c :: rest =>
    if isBlank c then
      if afterBlank then collapse true rest else ' ' :: collapse true rest
    else c :: collapse false rest

/-- Words separated by single spaces, with no space at either end. -/
def normalizeSpacing (s : List Char) : List Char := trim (collapse false s)

/-- The text without the blanks at its beginning and end. -/
def trimString (s : String) : String := String.ofList (trim s.toList)

end Formulary.Text
