import Formulary.Table

/-!
# Catalogs

A catalog holds equations under keys, arranged in areas and subareas, and the constants and units
that go with them. `Catalog.listed` is the list that a picker shows, and a constant is referred to
in formulas by its name behind the prefix `CONSTANT_`.
-/

namespace Formulary

/-- An equation of a catalog, or one that is given directly. -/
structure Equation where
  key : String
  name : String
  formula : String
  symbols : List String
  area : String
  subarea : String
  deriving Repr, DecidableEq

/-- A constant of nature. -/
structure Constant where
  value : Float
  unit : String
  description : String
  deriving Repr

/-- An area: its name, and the names of its subareas under their keys. -/
structure Area where
  name : String
  subareas : Table String
  deriving Repr

/-- Equations, areas, constants and units, all in the order of the document that they come from. -/
structure Catalog where
  constants : Table Constant
  units : Table String
  equations : Table Equation
  areas : Table Area
  deriving Repr

/-- An equation of an outline: its key, name, formula and variables. -/
structure Entry where
  key : String
  name : String
  formula : String
  symbols : List String

/-- A subarea of an outline with its equations. -/
structure Subarea where
  key : String
  name : String
  equations : List Entry

/-- The equations of a subarea that belongs to an area. -/
def Subarea.equationsIn (area : String) (s : Subarea) : List Equation :=
  s.equations.map fun e => ⟨e.key, e.name, e.formula, e.symbols, area, s.key⟩

namespace Catalog

/-- The catalog of an outline: areas by key and name with their subareas. -/
def ofOutline (constants : Table Constant) (units : Table String)
    (outline : List (String × String × List Subarea)) : Catalog where
  constants := constants
  units := units
  equations := outline.flatMap fun (area, _, subareas) =>
    (subareas.flatMap (Subarea.equationsIn area)).map fun e => (e.key, e)
  areas := outline.map fun (area, name, subareas) =>
    (area, ⟨name, subareas.map fun s => (s.key, s.name)⟩)

/-- The equation under a key. -/
def equation? (c : Catalog) (key : String) : Option Equation := c.equations.get? key

/-- Whether a filter lets a key pass; an absent or empty filter lets all pass. -/
def passes (filter : Option String) (key : String) : Bool :=
  match filter with
  | none => true
  | some f => f == "" || f == key

/-- The equations of an area and a subarea, each of which may be left open. -/
def listed (c : Catalog) (area subarea : Option String) : List Equation :=
  (c.equations.map (·.2)).filter fun e => passes area e.area && passes subarea e.subarea

/-- The mark in front of the name of a constant. -/
def constantPrefix : String := "CONSTANT_"

/-- Whether a symbol refers to a constant. -/
def isConstant (symbol : String) : Bool := symbol.startsWith constantPrefix

/-- The name of the constant that a symbol refers to; other symbols stand for themselves. -/
def constantKey (symbol : String) : String :=
  if isConstant symbol then String.ofList (symbol.toList.drop constantPrefix.length) else symbol

/-- The constant that a name or a reference stands for. -/
def constant? (c : Catalog) (symbol : String) : Option Constant :=
  c.constants.get? (constantKey symbol)

/-- The unit of a symbol: that of the constant for a reference, and empty if none is known. -/
def unit (c : Catalog) (symbol : String) : String :=
  if isConstant symbol then ((c.constant? symbol).map (·.unit)).getD ""
  else (c.units.get? symbol).getD ""

end Catalog
end Formulary
