import Formulary.Text.Word

/-!
# Names in formulas

A symbol is a word that begins with no digit, followed by any number of primes, such as `f'`, `Δt`
or `F_at`. The names of functions and of the two built-in constants are reserved: no symbol of an
equation may be spelled like one of them.
-/

namespace Formulary.Formula

open Formulary.Text

/-- The functions that a formula may call. -/
inductive Function where
  | sin | cos | tan | asin | acos | atan | atan2 | sqrt | abs | log | ln | exp
  deriving Repr, DecidableEq

/-- The name of a function. -/
def Function.name : Function → String
  | .sin => "sin" | .cos => "cos" | .tan => "tan"
  | .asin => "asin" | .acos => "acos" | .atan => "atan" | .atan2 => "atan2"
  | .sqrt => "sqrt" | .abs => "abs" | .log => "log" | .ln => "ln" | .exp => "exp"

/-- All functions. -/
def Function.all : List Function :=
  [.sin, .cos, .tan, .asin, .acos, .atan, .atan2, .sqrt, .abs, .log, .ln, .exp]

/-- The function of a name. -/
def Function.ofName? (s : String) : Option Function := Function.all.find? (·.name == s)

/--
The functions whose argument is an angle or whose value is one, in the order in which `inRadians`
takes them.
-/
def Function.trigonometric : List Function := [.sin, .cos, .tan, .asin, .acos, .atan]

/-- The names of the built-in constants. -/
def constantNames : List String := ["pi", "e"]

/-- The names that no symbol may have. -/
def reservedNames : List String := Function.all.map Function.name ++ constantNames

/-- Whether a name is reserved. -/
def isReserved (s : String) : Bool := reservedNames.contains s

/-- Whether a text is one symbol: a word that begins with no digit, and primes. -/
def isSymbol : List Char → Bool
  | [] => false
  | c :: rest => isWordStart c && (rest.dropWhile isWord).all (· == '\'')

/-- The list of functions is complete. -/
theorem Function.mem_all (f : Function) : f ∈ Function.all := by
  cases f <;> simp [Function.all]

/-- The name of a function is the name of no other. -/
theorem Function.name_injective {f g : Function} (h : f.name = g.name) : f = g := by
  cases f <;> cases g <;> first | rfl | (exfalso; revert h; decide)

/-- A function is found under its name. -/
theorem Function.ofName?_name (f : Function) : Function.ofName? f.name = some f := by
  cases f <;> decide

end Formulary.Formula
