import Formulary.Formula.Names
import Formulary.Text.Replacement
import Formulary.Text.Spacing

/-!
# Angles in degrees

The arguments of trigonometric functions are entered in degrees. `inRadians` replaces each call
`sin(u)` to `sin((u) * pi / 180)`, one function after the other, where `u` holds at most one level
of nested parentheses; calls with deeper arguments stay as they are, and so do calls inside an
argument of the same function. `canonical` is the form in which all stages of a solution see a
formula.
-/

namespace Formulary.Formula

open Formulary.Text

/--
The argument of a call up to its closing parenthesis, which is dropped, and what follows it;
`nested` says that the text begins inside one inner pair of parentheses.
-/
def takeArgument (nested : Bool) : List Char → Option (List Char × List Char)
  | [] => none
  | c :: rest =>
    if c = '(' then
      if nested then none else (takeArgument true rest).map fun (u, rest) => (c :: u, rest)
    else if c = ')' then
      if nested then (takeArgument false rest).map fun (u, rest) => (c :: u, rest)
      else some ([], rest)
    else (takeArgument nested rest).map fun (u, rest) => (c :: u, rest)

/-- A text without a given beginning. -/
def dropPrefix? : List Char → List Char → Option (List Char)
  | [], s => some s
  | _ :: _, [] => none
  | p :: ps, c :: cs => if p = c then dropPrefix? ps cs else none

/-- Whether a name cannot begin after this character: it would continue a word or a decimal. -/
def continuesWord : Option Char → Bool
  | some c => isWord c || c == '.'
  | none => false

/-- Wraps the argument of a call of one function. -/
def callInRadians (f : Function) : Rule := fun before following =>
  if continuesWord before then none else
    let head := f.name.toList ++ ['(']
    match (dropPrefix? head following).bind (takeArgument false) with
    | some (u@(_ :: _), _) =>
      some (head ++ '(' :: u ++ ") * pi / 180)".toList, head.length + u.length + 1)
    | _ => none

/-- The formula with the arguments of trigonometric calls converted from degrees. -/
def inRadians (s : List Char) : List Char :=
  Function.trigonometric.foldl (fun s f => replaceBy (callInRadians f) s) s

/-- The form of a formula that every stage of a solution works on. -/
def canonical (s : List Char) : List Char := inRadians (normalizeSpacing s)

end Formulary.Formula
