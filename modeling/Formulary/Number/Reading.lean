import Formulary.Number.Shortest
import Formulary.Text.Digit
import Formulary.Text.Spacing

/-!
# Reading numbers

Numbers as people write them: blanks around, an optional sign, decimal digits of any script with
single underscores between them, a point, an exponent; or the words for infinity and for no number.
The double that is read is the nearest one to what is written.
-/

namespace Formulary.Number

open Formulary.Text

/-- Digits of any script as digits of ASCII; other characters stay as they are. -/
def plainDigit (c : Char) : Char :=
  match digitValue? c with
  | some d => Char.ofNat (d + 48)
  | none => c

/-- The value of a row of ASCII digits, continuing from `n`. -/
def natOfDigits (n : Nat) (ds : List Char) : Nat :=
  ds.foldl (fun n d => 10 * n + (d.toNat - 48)) n

/--
The digits at the beginning of a text, where one underscore may stand between two digits, and what
follows them. `afterDigit` says whether an underscore may come next.
-/
def takeDigits (afterDigit : Bool) : List Char → List Char × List Char
  | [] => ([], [])
  | '_' :: d :: rest =>
    if afterDigit && d.isDigit then let (ds, rest) := takeDigits true rest; (d :: ds, rest)
    else ([], '_' :: d :: rest)
  | c :: rest =>
    if c.isDigit then let (ds, rest) := takeDigits true rest; (c :: ds, rest) else ([], c :: rest)

/-- A sign at the beginning of a text: whether it is a minus, and what follows. -/
def takeSign : List Char → Bool × List Char
  | '-' :: rest => (true, rest)
  | '+' :: rest => (false, rest)
  | rest => (false, rest)

/-- An exponent part at the beginning of a text; without one the exponent is zero. -/
def takeExponent (s : List Char) : Int × List Char :=
  match s with
  | c :: rest =>
    if c = 'e' ∨ c = 'E' then
      let (negative, rest) := takeSign rest
      match takeDigits false rest with
      | ([], _) => (0, s)
      | (ds, rest) => (if negative then -(natOfDigits 0 ds : Int) else natOfDigits 0 ds, rest)
    else (0, s)
  | [] => (0, [])

/--
An unsigned decimal at the beginning of a text, with the number of digits that its coefficient is
written with, and what follows; there is at least one digit before or after the point.
-/
def takeDecimal? (s : List Char) : Option (Nat × Int × List Char) :=
  let (whole, rest) := takeDigits false s
  let (places, rest) := match rest with
    | '.' :: rest => takeDigits false rest
    | rest => ([], rest)
  if whole.isEmpty && places.isEmpty then none else
    let (e, rest) := takeExponent rest
    some (natOfDigits (natOfDigits 0 whole) places, e - places.length, rest)

/--
The double nearest to `± coefficient · 10 ^ exponent`. Exponents far out of range are cut off before
any power is formed.
-/
def Decimal.toFloat (d : Decimal) : Float :=
  let size := d.exponent + decimalLength d.coefficient
  if d.coefficient = 0 ∨ size < -330 then nearestFloat d.negative 0 1
  else if 310 < size then nearestFloat d.negative (Nat.pow 10 310) 1
  else if 0 ≤ d.exponent then
    nearestFloat d.negative (d.coefficient * Nat.pow 10 d.exponent.toNat) 1
  else nearestFloat d.negative d.coefficient (Nat.pow 10 (-d.exponent).toNat)

/-- A double whose sign is flipped on demand. -/
def withSign (negative : Bool) (x : Float) : Float := if negative then -x else x

/-- The double that a text denotes. -/
def readFloat? (s : String) : Option Float :=
  let (negative, body) := takeSign ((trim s.toList).map plainDigit)
  let word := String.ofList (body.map Char.toLower)
  if word = "inf" ∨ word = "infinity" then some (withSign negative (1.0 / 0.0))
  else if word = "nan" then some (0.0 / 0.0)
  else match takeDecimal? body with
    | some (n, e, []) => some (Decimal.toFloat ⟨negative, n, e⟩)
    | _ => none

/-- The most digits that an integer may be written with. -/
def maxIntegerDigits : Nat := 4300

/-- The integer that a text denotes; more than `maxIntegerDigits` digits are refused. -/
def readInt? (s : String) : Option Int :=
  let (negative, body) := takeSign ((trim s.toList).map plainDigit)
  match takeDigits false body with
  | ([], _) => none
  | (ds, []) =>
    if maxIntegerDigits < ds.length then none
    else some (if negative then -(natOfDigits 0 ds : Int) else natOfDigits 0 ds)
  | _ => none

end Formulary.Number
