import Formulary.Cache
import Formulary.Catalog.Basic
import Formulary.ClosedForm.Attempt
import Formulary.Display
import Formulary.Formula.Degrees
import Formulary.Numeric.Solve

/-!
# The calculator

A request names an equation, gives values for its variables and asks for the one that is unknown.
The calculator checks the request, looks the answer up among those that it gave before, tries for a
closed form and else searches numerically; what it finds it keeps. `Calculator.solve` returns the
answer together with the cache after it.
-/

namespace Formulary

open Formulary.Number Formulary.Text

/-- What a calculator works with. -/
structure Calculator where
  catalog : Catalog
  settings : Numeric.Settings Float
  /-- the attempt at a closed form, given a formula, the bindings and the unknown -/
  closedForm : String → List (String × Float) → String → ClosedForm.Report

/-- How an answer was found. -/
inductive Method where
  | direct
  | numeric
  deriving Repr, DecidableEq

/-- The name of a method as the user sees it. -/
def Method.name : Method → String
  | .direct => "Substituição direta"
  | .numeric => "Métodos numéricos"

/-- An answer. -/
structure Solution where
  value : Float
  method : Method
  converged : Bool
  cached : Bool
  trace : Trace

/-- An answer with the text and the unit to show it with. -/
structure FormattedSolution where
  unknown : String
  solution : Solution
  formatted : String
  unit : String

/-- What a request names: an equation of the catalog, or one that it brings along. -/
inductive EquationRef where
  | key (key : String)
  | given (e : Equation)

namespace Calculator

/--
The double that a raw value of a variable stands for. A value that cannot be written, which is an
integer of too many digits or holds one, stands for none, and its failure is not told.
-/
def readValue (name : String) (raw : Datum) : Except Failure Float :=
  let finite (x : Float) : Except Failure Float :=
    if x.isFinite then .ok x else .error (.invalidNumber name raw)
  match raw with
  | .truth _ => .error (.invalidNumber name raw)
  | .integer n =>
    match floatOfInt? n with
    | some x => .ok x
    | none => .error (.invalidNumber name raw)
  | .real x => finite x
  | raw =>
    let text := trimString raw.display
    if text = "" then .error (.missingVariable name)
    else match readFloat? text with
      | some x => finite x
      | none => .error (.invalidNumber name raw)

/-- The value of a variable: that of a constant, or what the user gave. -/
def variableValue (c : Calculator) (inputs : Table Datum) (name : String) : Except Failure Float :=
  if Catalog.isConstant name then
    match c.catalog.constant? name with
    | some k => .ok k.value
    | none => .error (.missingVariable name)
  else match inputs.get? name with
    | none | some .null => .error (.missingVariable name)
    | some raw => readValue name raw

/-- The values of variables but the unknown, in their order. -/
def bindVariables (c : Calculator) (inputs : Table Datum) (unknown : String) :
    List String → Table Float → Except Failure (Table Float)
  | [], bindings => .ok bindings
  | name :: rest, bindings =>
    if name = unknown then bindVariables c inputs unknown rest bindings
    else do
      let x ← c.variableValue inputs name
      bindVariables c inputs unknown rest (Table.put name x bindings)

/--
The bindings of a request: a finite number for every variable of the equation but the unknown.
-/
def bindings (c : Calculator) (e : Equation) (inputs : Table Datum) (unknown : String) :
    Except Failure (Table Float) :=
  if !e.symbols.contains unknown || Catalog.isConstant unknown then
    .error (.unknownVariable unknown e.key)
  else c.bindVariables inputs unknown e.symbols []

/-- The equation that a request names. -/
def equation (c : Calculator) : EquationRef → Except Failure Equation
  | .given e => .ok e
  | .key k =>
    match c.catalog.equation? k with
    | some e => .ok e
    | none => .error (.unknownEquation k)

/-- An answer that is not in the cache: a closed form, or else a numeric one. -/
def compute (c : Calculator) (formula : String) (bindings : Table Float) (unknown : String) :
    Except Stop Solution :=
  let attempt := c.closedForm formula bindings unknown
  match attempt.value with
  | some v => .ok ⟨v, .direct, true, false, attempt.trace⟩
  | none =>
    let search := Numeric.solve c.settings formula bindings unknown
    match search.result with
    | .ok o => .ok ⟨o.value, .numeric, o.converged, false, attempt.trace ++ search.trace⟩
    | .error e => .error e

/-- The first steps of an answer: what was asked, and the canonical formula if it differs. -/
def opening (e : Equation) (canonical unknown : String) (bindings : Table Float) : Trace :=
  .inputs e.key e.formula unknown bindings ::
    if canonical = e.formula then [] else [.canonical canonical]

/-- The answer to a request that was checked, and the cache after it. -/
def answer (c : Calculator) (cache : Cache) (e : Equation) (bindings : Table Float)
    (unknown : String) : Except Stop Solution × Cache :=
  let canonical := String.ofList (Formula.canonical e.formula.toList)
  let opening := opening e canonical unknown bindings
  let key := CacheKey.of e.formula unknown bindings
  match cache.get key with
  | (some v, cache) =>
    (.ok ⟨v.value, .direct, v.converged, true, opening ++ [.cacheHit v.value]⟩, cache)
  | (none, cache) =>
    match c.compute canonical bindings unknown with
    | .ok s =>
      (.ok { s with trace := opening ++ s.trace }, cache.put key ⟨s.value, s.converged⟩)
    | .error e => (.error e, cache)

/-- The answer to a request, and the cache after it. -/
def solve (c : Calculator) (cache : Cache) (e : EquationRef) (inputs : Table Datum)
    (unknown : String) : Except Stop Solution × Cache :=
  match c.equation e with
  | .error f => (.error (.failure f), cache)
  | .ok e =>
    match c.bindings e inputs unknown with
    | .error f => (.error (.failure f), cache)
    | .ok bindings => c.answer cache e bindings unknown

/-- The answer to a request as it is shown, and the cache after it. -/
def solveAndFormat (c : Calculator) (cache : Cache) (e : EquationRef) (inputs : Table Datum)
    (unknown : String) : Except Stop FormattedSolution × Cache :=
  match c.solve cache e inputs unknown with
  | (.ok s, cache) =>
    (.ok ⟨unknown, s, displayText true s.value, c.catalog.unit unknown⟩, cache)
  | (.error e, cache) => (.error e, cache)

end Calculator
end Formulary
