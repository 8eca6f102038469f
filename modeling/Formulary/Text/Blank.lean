import Formulary.Text.CodePoints

/-!
# Blank characters

The characters that separate words: the spaces, tabs and line ends of ASCII, the four information
separators, and the spaces and line separators beyond ASCII. A zero-width space, a byte order mark
and the Mongolian vowel separator are not blank.
-/

namespace Formulary.Text

/-- The code points of blank characters. -/
def blanks : CodePoints :=
  [(0x9, 0xD), (0x1C, 0x20), (0x85, 0x85), (0xA0, 0xA0), (0x1680, 0x1680), (0x2000, 0x200A),
   (0x2028, 0x2029), (0x202F, 0x202F), (0x205F, 0x205F), (0x3000, 0x3000)]

/-- Whether a character is blank. -/
def isBlank (c : Char) : Bool := blanks.mem c.toNat

end Formulary.Text
