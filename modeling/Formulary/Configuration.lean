import Formulary.Number.Reading
import Formulary.Numeric.Settings
import Formulary.Table
import Formulary.Text.Quoted
import Formulary.Text.Uppercase

/-!
# Configuration

The configuration is read from environment variables. One that is unset or blank leaves the
default, and one that holds no number where a number is needed is an error.
-/

namespace Formulary

open Formulary.Text Formulary.Number

/-- The kinds of numbers that are configured. -/
inductive NumberKind where
  | integer
  | real
  deriving Repr, DecidableEq

/-- The name of a kind of numbers in messages. -/
def NumberKind.name : NumberKind → String
  | .integer => "int"
  | .real => "float"

/-- A variable that does not hold a number. -/
structure ConfigurationError where
  source : String
  kind : NumberKind
  raw : String

/-- What is said of a variable that does not hold a number. -/
def ConfigurationError.message (e : ConfigurationError) : String :=
  e.source ++ " must be a " ++ e.kind.name ++ ", got " ++ quoted e.raw

/-- The configuration of the calculator. -/
structure Configuration where
  /-- where the catalog is read from; nothing stands for the standard one -/
  catalogPath : Option String := none
  logLevel : String := "INFO"
  numeric : Numeric.Settings Float := .standard

namespace Configuration

/-- The value of a variable, unless it is unset or blank. -/
def numeral? (env : Table String) (name : String) : Option String :=
  (env.get? name).filter fun raw => !(trim raw.toList).isEmpty

/-- The value of a variable, unless it is unset or empty. -/
def text? (env : Table String) (name : String) : Option String :=
  (env.get? name).filter (· != "")

/-- The integer in a variable. -/
def integer (env : Table String) (name : String) (default : Int) : Except ConfigurationError Int :=
  match numeral? env name with
  | none => .ok default
  | some raw =>
    match readInt? raw with
    | some n => .ok n
    | none => .error ⟨name, .integer, raw⟩

/-- The double in a variable. -/
def real (env : Table String) (name : String) (default : Float) : Except ConfigurationError Float :=
  match numeral? env name with
  | none => .ok default
  | some raw =>
    match readFloat? raw with
    | some x => .ok x
    | none => .error ⟨name, .real, raw⟩

/-- The configuration that an environment describes. -/
def ofEnvironment (env : Table String) : Except ConfigurationError Configuration := do
  let base : Numeric.Settings Float := .standard
  let newtonCap ← integer env "PHYSCALC_NEWTON_MAX_ITER" base.newtonCap
  let bisectionCap ← integer env "PHYSCALC_BISECTION_MAX_ITER" base.bisectionCap
  let tolerance ← real env "PHYSCALC_TOLERANCE" base.tolerance
  return { catalogPath := text? env "PHYSCALC_CATALOG_PATH"
           logLevel := upper ((text? env "PHYSCALC_LOG_LEVEL").getD "INFO")
           numeric := { base with newtonCap, bisectionCap, tolerance } }

end Configuration
end Formulary
