/-!
# Replacing parts of a text from left to right

A rule looks at one place of a text, sees the character before it and all that follows, and may
answer with a replacement and the number of characters that it covers. `replaceBy` applies a rule
at every place from left to right; places that a replacement covers are not looked at again, and
the character before a place is always that of the given text.
-/

namespace Formulary.Text

/-- What replaces the text at a place, and how many characters it covers. -/
abbrev Rule := (before : Option Char) → (following : List Char) → Option (List Char × Nat)

/--
The text with its parts replaced by a rule, where the first `skip` characters are covered already.
-/
def replaceFrom (rule : Rule) (skip : Nat) (before : Option Char) : List Char → List Char
  | [] =>
    match skip, rule before [] with
    | 0, some (replacement, _) => replacement
    | _, _ => []
  | c :: rest =>
    match skip with
    | skip + 1 => replaceFrom rule skip (some c) rest
    | 0 =>
      match rule before (c :: rest) with
      | some (replacement, 0) => replacement ++ c :: replaceFrom rule 0 (some c) rest
      | some (replacement, n + 1) => replacement ++ replaceFrom rule n (some c) rest
      | none => c :: replaceFrom rule 0 (some c) rest

/-- The text with its parts replaced by a rule. -/
def replaceBy (rule : Rule) (s : List Char) : List Char := replaceFrom rule 0 none s

end Formulary.Text
