import Formulary.Calculator

/-!
# The service

Requests come in from outside as data. A request for a solution has to name an equation and an
unknown, and may give values that are texts or numbers; one that does not fit is refused with the
names of the fields that are wrong. An equation that is not in the catalog is not found, and every
other failure makes the request one that cannot be processed.
-/

namespace Formulary.Service

open Formulary.Number

/-- A request for a solution. -/
structure Request where
  equation : String
  unknown : String
  values : Table Datum

/-- Why there is no response. -/
inductive Refusal where
  | notFound (detail : String)
  | unprocessable (detail : String)
  /-- the fields that do not fit, in order; the empty name stands for the request itself -/
  | invalid (fields : List String)

/-- The status code of a refusal. -/
def Refusal.status : Refusal → Nat
  | .notFound _ => 404
  | .unprocessable _ | .invalid _ => 422

/-- A value as it is accepted: texts as they are, numbers and truth values as doubles. -/
def acceptValue : Datum → Option Datum
  | .text s => some (.text s)
  | .truth b => some (.real (if b then 1.0 else 0.0))
  | .integer n => (floatOfInt? n).map .real
  | .real x => some (.real x)
  | _ => none

/-- The values of a request under their names. -/
def acceptValues (kvs : List (Datum × Datum)) : Option (Table Datum) :=
  kvs.mapM fun (k, v) => (acceptValue v).map (k.display, ·)

/-- The values of a request, which may be absent. -/
def valuesField : Option Datum → Option (Table Datum)
  | none => some []
  | some (.mapping kvs) => acceptValues kvs
  | some _ => none

/-- A field that has to be a text. -/
def textField : Option Datum → Option String
  | some (.text s) => some s
  | _ => none

/-- The request that a datum is. -/
def Request.ofDatum (d : Datum) : Except Refusal Request :=
  match d with
  | .mapping kvs =>
    let equation := textField (Datum.entry? kvs "equation")
    let unknown := textField (Datum.entry? kvs "unknown")
    let values := valuesField (Datum.entry? kvs "values")
    match equation, unknown, values with
    | some equation, some unknown, some values => .ok ⟨equation, unknown, values⟩
    | _, _, _ =>
      .error <| .invalid <|
        (if equation.isNone then ["equation"] else []) ++
        (if unknown.isNone then ["unknown"] else []) ++
        (if values.isNone then ["values"] else [])
  | _ => .error (.invalid [""])

/-- How a failure to solve is answered. -/
def Refusal.ofFailure : Failure → Refusal
  | .unknownEquation key => .notFound (Failure.message (.unknownEquation key))
  | f => .unprocessable f.message

/-- The response to a request for a solution, and the cache after it. -/
def solve (c : Calculator) (cache : Cache) (r : Request) :
    Except Stop (Except Refusal FormattedSolution) × Cache :=
  match c.solveAndFormat cache (.key r.equation) r.values r.unknown with
  | (.ok s, cache) => (.ok (.ok s), cache)
  | (.error (.failure f), cache) => (.ok (.error (Refusal.ofFailure f)), cache)
  | (.error e, cache) => (.error e, cache)

end Formulary.Service
