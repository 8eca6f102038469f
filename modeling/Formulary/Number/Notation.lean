import Formulary.Number.Shortest

/-!
# Decimal text

Three ways to write a double: the shortest text that reads back (`FloatText.shortest`), a fixed
number of decimal places (`fixedPlaces`), and scientific form with a fixed number of places
(`scientific`). The last two round the exact binary value half to even.
-/

namespace Formulary.Number

/-- The decimal digits of a number. -/
def digits (n : Nat) : List Char := Nat.toDigits 10 n

/-- The digits of a number, with zeros in front up to a width. -/
def paddedDigits (width n : Nat) : List Char :=
  let ds := digits n
  List.replicate (width - ds.length) '0' ++ ds

/-- An exponent: the mark `e`, a sign, and at least two digits. -/
def exponentText (e : Int) : List Char :=
  'e' :: (if e < 0 then '-' else '+') :: paddedDigits 2 e.natAbs

/-- Where shortest texts change from positional to exponent form. -/
structure ShortestForm where
  /-- the least exponent of the leading digit that is still written positionally -/
  leastPositional : Int
  /-- the greatest such exponent -/
  greatestPositional : Int

/-- Exponents from -4 to 15 are written positionally. -/
def ShortestForm.standard : ShortestForm := ⟨-4, 15⟩

/-- The magnitude `n · 10 ^ e`, with at least one digit on each side of the point. -/
def positional (n : Nat) (e : Int) : List Char :=
  if 0 ≤ e then digits n ++ List.replicate e.toNat '0' ++ ['.', '0']
  else
    let places := (-e).toNat
    let ds := paddedDigits (places + 1) n
    ds.take (ds.length - places) ++ '.' :: ds.drop (ds.length - places)

/-- The magnitude `n · 10 ^ e` with one digit before the point; a lone digit has no point. -/
def exponential (n : Nat) (e : Int) : List Char :=
  match digits n with
  | [] => []
  | [d] => d :: exponentText e
  | d :: ds => d :: '.' :: ds ++ exponentText (e + ds.length)

/-- The text of a decimal number. -/
def Decimal.text (form : ShortestForm) (d : Decimal) : List Char :=
  let leading := d.exponent + (digits d.coefficient).length - 1
  let body :=
    if d.coefficient = 0 then ['0', '.', '0']
    else if form.leastPositional ≤ leading ∧ leading ≤ form.greatestPositional then
      positional d.coefficient d.exponent
    else exponential d.coefficient d.exponent
  if d.negative then '-' :: body else body

/-- The texts of the values that are no numbers. -/
def specialText : Double → List Char
  | .infinite true => "-inf".toList
  | .infinite false => "inf".toList
  | _ => "nan".toList

/-- The shortest text that reads back as the double. -/
def shortestText (x : Float) : String :=
  String.ofList <| match Double.ofFloat x with
    | .finite negative m q => (shortest negative m q).text .standard
    | special => specialText special

/-- The magnitude `m · 2 ^ q` counted in units of `10 ^ -places`, rounded half to even. -/
def fixedUnits (places : Nat) (m : Nat) (q : Int) : Nat :=
  let (num, den) := Double.fraction m q
  roundHalfEven (num * Nat.pow 10 places) den

/-- A number of units of `10 ^ -places` written out. -/
def fixedText (places units : Nat) : List Char :=
  let ds := paddedDigits (places + 1) units
  ds.take (ds.length - places) ++ '.' :: ds.drop (ds.length - places)

/--
The magnitude `m · 2 ^ q` in scientific form with `places + 1` digits: the number that the digits
spell and the exponent of the leading one. A carry through all digits raises the exponent.
-/
def scientificUnits (places : Nat) (m : Nat) (q : Int) : Nat × Int :=
  if m = 0 then (0, 0) else
    let (num, den) := Double.fraction m q
    let e := leadingExponent num den
    let (a, b) := inUnits num den (e - places)
    let n := roundHalfEven a b
    if n = Nat.pow 10 (places + 1) then (Nat.pow 10 places, e + 1) else (n, e)

/-- Digits and exponent in scientific form written out. -/
def scientificText (places : Nat) (n : Nat) (e : Int) : List Char :=
  match paddedDigits (places + 1) n with
  | [] => []
  | d :: ds => d :: '.' :: ds ++ exponentText e

/-- The double in scientific form with a fixed number of places. -/
def scientific (places : Nat) (x : Float) : String :=
  String.ofList <| match Double.ofFloat x with
    | .finite negative m q =>
      let (n, e) := scientificUnits places m q
      (if negative then ['-'] else []) ++ scientificText places n e
    | special => specialText special

end Formulary.Number
