import Formulary.Text.Quoted
import Formulary.Text.Spacing

/-!
# The two sides of a formula

A formula is `left = right` with one equals sign and something other than blanks on both sides. Its
residual is the difference of the two sides, which is zero exactly at a solution.
-/

namespace Formulary.Formula

open Formulary.Text

/-- The parts of a text between equals signs. -/
def splitAtEquals : List Char → List (List Char)
  | [] => [[]]
  | c :: rest =>
    match splitAtEquals rest with
    | [] => [[]]
    | part :: parts => if c = '=' then [] :: part :: parts else (c :: part) :: parts

/-- A text that is no equation. -/
structure NotAnEquation where
  text : String

/-- What is said of a text that is no equation. -/
def NotAnEquation.message (e : NotAnEquation) : String :=
  "Expected '<lhs> = <rhs>', got: " ++ quoted e.text

/-- The two sides of a formula, without blanks around them. -/
def sides (s : List Char) : Except NotAnEquation (List Char × List Char) :=
  match splitAtEquals s with
  | [left, right] =>
    if (trim left).isEmpty || (trim right).isEmpty then .error ⟨String.ofList s⟩
    else .ok (trim left, trim right)
  | _ => .error ⟨String.ofList s⟩

/-- The difference of the two sides, as the text of an expression. -/
def residual (s : List Char) : Except NotAnEquation (List Char) := do
  let (left, right) ← sides s
  return '(' :: left ++ ") - (".toList ++ right ++ [')']

end Formulary.Formula
