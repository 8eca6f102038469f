import Formulary.Catalog.Basic
import Formulary.Datum
import Formulary.Document.Content
import Formulary.Formula.Sides
import Formulary.Formula.Names
import Formulary.Number.Reading

/-!
# Loading a catalog

A catalog is read from a document: mappings of constants and units, and areas that hold subareas
that hold equations. Absent and empty parts count as empty mappings. Each equation is checked as it
is read. A `CatalogError` is what the author of a document is told; the other ways in which loading
stops are those where a part of the document has a shape that nothing can be read from
(`LoadStop`).
-/

namespace Formulary

open Formulary.Text Formulary.Formula Formulary.Number

/-- What is said of an integer with too many digits to be written. -/
def tooManyDigits : String :=
  "Exceeds the limit (4300 digits) for integer string conversion; " ++
    "use sys.set_int_max_str_digits() to increase the limit"

/-- What is wrong with a constant. -/
inductive ConstantFault where
  | noValue
  | notNumeral (text : String)
  | wrongKind
  /-- a unit or a description that cannot be written -/
  | unwritable

/-- What is wrong with a catalog. -/
inductive CatalogError where
  | rootNotMapping
  | malformedConstant (key : String) (fault : ConstantFault)
  /-- a field of an equation is absent, or the equation has no fields at all -/
  | missingField (key : String) (field : Option String)
  | notAnEquation (key : String) (e : NotAnEquation)
  | unwritableFormula (key : String)
  | noVariables (key : String)
  | invalidName (key name : String)
  | duplicateKey (key : String)
  | invalidDocument

/-- What the author of a catalog is told. -/
def CatalogError.message : CatalogError → String
  | .rootNotMapping => "Catalog root must be a mapping"
  | .malformedConstant key fault =>
    "Malformed constant '" ++ key ++ "'" ++ match fault with
      | .noValue => ": 'value'"
      | .notNumeral text => ": could not convert string to float: " ++ quoted text
      | .wrongKind => ""
      | .unwritable => ": " ++ tooManyDigits
  | .missingField key field =>
    "Equation '" ++ key ++ "' is missing field" ++ match field with
      | some f => " " ++ quoted f
      | none => ""
  | .notAnEquation key e => "Equation '" ++ key ++ "': " ++ e.message
  | .unwritableFormula key => "Equation '" ++ key ++ "': " ++ tooManyDigits
  | .noVariables key => "Equation '" ++ key ++ "' lists no variables"
  | .invalidName key name => "Equation '" ++ key ++ "': invalid variable name " ++ quoted name
  | .duplicateKey key => "Duplicate equation key: '" ++ key ++ "'"
  | .invalidDocument => "Invalid catalog YAML"

/-- How loading stops without a catalog. -/
inductive LoadStop where
  | invalid (e : CatalogError)
  /-- a section that is no mapping -/
  | notMapping
  /-- variables that are no list -/
  | notList
  /-- a constant beyond all doubles -/
  | outOfRange
  /--
  a document with a word for a value that does not exist, such as a thirteenth month, or an integer
  with too many digits to be written
  -/
  | invalidValue

namespace Catalog

/-- The text of a datum. -/
def written (d : Datum) : Except LoadStop String :=
  if d.isWritable then .ok d.display else .error .invalidValue

/-- An error that names a key, which has to be written for that. -/
def reject {α : Type} (key : Datum) (e : String → CatalogError) : Except LoadStop α := do
  throw (.invalid (e (← written key)))

/-- The entries of a section; an absent or empty one has none. -/
def entriesOf (d : Option Datum) : Except LoadStop (List (Datum × Datum)) :=
  match d with
  | none => .ok []
  | some (.mapping kvs) => .ok kvs
  | some d => if d.isPresent then .error .notMapping else .ok []

/-- A value of a constant as a double. -/
def constantValue (key : Datum) : Datum → Except LoadStop Float
  | .truth b => .ok (if b then 1.0 else 0.0)
  | .real x => .ok x
  | .integer n =>
    match floatOfInt? n with
    | some x => .ok x
    | none => .error .outOfRange
  | .text s =>
    match readFloat? s with
    | some x => .ok x
    | none => reject key (.malformedConstant · (.notNumeral s))
  | _ => reject key (.malformedConstant · .wrongKind)

/-- A text that belongs to a constant; an absent one is empty. -/
def constantText (key : Datum) (kvs : List (Datum × Datum)) (field : String) :
    Except LoadStop String :=
  match Datum.entry? kvs field with
  | none => .ok ""
  | some d => if d.isWritable then .ok d.display else reject key (.malformedConstant · .unwritable)

/-- A constant as it is read from a document. -/
def readConstant (key : Datum) : Datum → Except LoadStop Constant
  | .mapping kvs => do
    match Datum.entry? kvs "value" with
    | none => reject key (.malformedConstant · .noValue)
    | some v =>
      let value ← constantValue key v
      let unit ← constantText key kvs "unit"
      let description ← constantText key kvs "description"
      return ⟨value, unit, description⟩
  | _ => reject key (.malformedConstant · .wrongKind)

/-- The names in the variables of an equation. -/
def variableNames (d : Datum) : Except LoadStop (List String) :=
  if !d.isPresent then .ok [] else
    match d.elements? with
    | some es => es.mapM fun e => trimString <$> written e
    | none => .error .notList

/-- A field of an equation. -/
def equationField (key : Datum) (kvs : List (Datum × Datum)) (field : String) :
    Except LoadStop Datum :=
  match Datum.entry? kvs field with
  | some d => .ok d
  | none => reject key (.missingField · (some field))

/-- The formula of an equation, which has two sides. -/
def equationFormula (key formula : Datum) : Except LoadStop String := do
  if !formula.isWritable then reject key .unwritableFormula
  match sides formula.display.toList with
  | .error e => reject key (.notAnEquation · e)
  | .ok _ => return formula.display

/-- The variables of an equation: at least one, and all of them symbols. -/
def equationSymbols (key listing : Datum) : Except LoadStop (List String) := do
  let names ← variableNames listing
  if names.isEmpty then reject key .noVariables
  match names.find? fun s => !isSymbol s.toList || isReserved s with
  | some s => reject key (.invalidName · s)
  | none => return names

/-- An equation as it is read from a document. -/
def readEquation (key : Datum) (area subarea : String) : Datum → Except LoadStop Equation
  | .mapping kvs => do
    let name ← equationField key kvs "name"
    let formula ← equationField key kvs "formula"
    let listing ← equationField key kvs "variables"
    let formula ← equationFormula key formula
    let symbols ← equationSymbols key listing
    let key ← written key
    let name ← written name
    return ⟨key, name, formula, symbols, area, subarea⟩
  | _ => reject key (.missingField · none)

/-- Whether an equation is stored under a key of a document; only texts are compared. -/
def isStored (eqs : Table Equation) : Datum → Bool
  | .text s => (eqs.get? s).isSome
  | _ => false

/-- The equations with those of one subarea. -/
def readEquations (area subarea : Datum) :
    List (Datum × Datum) → Table Equation → Except LoadStop (Table Equation)
  | [], eqs => .ok eqs
  | (k, d) :: rest, eqs => do
    if isStored eqs k then reject k .duplicateKey
    let e ← readEquation k (← written area) (← written subarea) d
    let key ← written k
    readEquations area subarea rest (eqs.put key e)

/-- A part of an area or subarea: the entries of a mapping, none if it is absent or empty. -/
def fields (d : Datum) : Except LoadStop (List (Datum × Datum)) := entriesOf (some d)

/-- The name of a part: what its field says, or its key. -/
def nameOr (kvs : List (Datum × Datum)) (key : Datum) : Except LoadStop String :=
  written ((Datum.entry? kvs "name").getD key)

/-- The equations and subareas with those of one area. -/
def readSubareas (area : Datum) :
    List (Datum × Datum) → Table Equation → Table String →
      Except LoadStop (Table Equation × Table String)
  | [], eqs, subs => .ok (eqs, subs)
  | (k, d) :: rest, eqs, subs => do
    let kvs ← fields d
    let name ← nameOr kvs k
    let key ← written k
    let entries ← entriesOf (Datum.entry? kvs "equations")
    let eqs ← readEquations area k entries eqs
    readSubareas area rest eqs (subs.put key name)

/-- The equations and areas of a document. -/
def readAreas : List (Datum × Datum) → Table Equation → Table Area →
    Except LoadStop (Table Equation × Table Area)
  | [], eqs, areas => .ok (eqs, areas)
  | (k, d) :: rest, eqs, areas => do
    let kvs ← fields d
    let entries ← entriesOf (Datum.entry? kvs "subareas")
    let (eqs, subs) ← readSubareas k entries eqs []
    let name ← nameOr kvs k
    let key ← written k
    readAreas rest eqs (areas.put key ⟨name, subs⟩)

/-- The constants of a document. -/
def readConstants :
    List (Datum × Datum) → Table Constant → Except LoadStop (Table Constant)
  | [], t => .ok t
  | (k, d) :: rest, t => do
    let c ← readConstant k d
    let key ← written k
    readConstants rest (t.put key c)

/-- The units of a document. -/
def readUnits : List (Datum × Datum) → Table String → Except LoadStop (Table String)
  | [], t => .ok t
  | (k, d) :: rest, t => do
    let key ← written k
    let unit ← written d
    readUnits rest (t.put key unit)

/-- The catalog that a document describes. -/
def ofDatum (d : Datum) : Except LoadStop Catalog :=
  match d with
  | .mapping kvs => do
    let constants ← readConstants (← entriesOf (Datum.entry? kvs "constants")) []
    let units ← readUnits (← entriesOf (Datum.entry? kvs "units")) []
    let (equations, areas) ← readAreas (← entriesOf (Datum.entry? kvs "areas")) [] []
    return { constants, units, equations, areas }
  | _ => .error (.invalid .rootNotMapping)

/-- The catalog that the text of a document describes. -/
def ofText (text : String) : Except LoadStop Catalog :=
  match Datum.ofDocument text with
  | .ok d => ofDatum d
  | .error .malformed => .error (.invalid .invalidDocument)
  | .error .invalidValue => .error .invalidValue

end Catalog
end Formulary
