import Formulary.Number.Notation
import Formulary.Number.Reading
import Formulary.Text.Quoted

/-!
# Data

Values as they come from outside: what a user enters for a variable, and what a catalog document
holds. Mappings keep the order of their keys, and a key may be any datum. `Datum.shown` writes a
datum the way messages quote it and `Datum.display` the way it is read as a text; a datum with an
integer of too many digits is not written at all (`Datum.isWritable`).
-/

namespace Formulary

open Formulary.Text Formulary.Number

/-- A day, and for a point in time its time of day as well. -/
structure Timestamp where
  year : Nat
  month : Nat
  day : Nat
  /--
  hours, minutes, seconds and microseconds, and the offset in minutes from universal time if given
  -/
  time : Option (Nat × Nat × Nat × Nat × Option Int)
  deriving Repr, DecidableEq

/-- A datum from outside. -/
inductive Datum where
  | null
  | truth (b : Bool)
  | integer (n : Int)
  | real (x : Float)
  | text (s : String)
  | moment (t : Timestamp)
  | list (elements : List Datum)
  | mapping (entries : List (Datum × Datum))
  deriving Repr, Inhabited

namespace Timestamp

/-- A number with zeros in front up to a width. -/
def padded (width n : Nat) : String := String.ofList (paddedDigits width n)

/-- The text of an offset from universal time. -/
def offsetText (minutes : Int) : String :=
  (if minutes < 0 then "-" else "+") ++ padded 2 (minutes.natAbs / 60) ++ ":" ++
    padded 2 (minutes.natAbs % 60)

/-- The text of a day or a point in time. -/
def display (t : Timestamp) : String :=
  let day := padded 4 t.year ++ "-" ++ padded 2 t.month ++ "-" ++ padded 2 t.day
  match t.time with
  | none => day
  | some (h, m, s, us, offset) =>
    day ++ " " ++ padded 2 h ++ ":" ++ padded 2 m ++ ":" ++ padded 2 s ++
      (if us = 0 then "" else "." ++ padded 6 us) ++ (offset.map offsetText).getD ""

/-- An offset from universal time as messages show it: full days, and the seconds after them. -/
def shownOffset (minutes : Int) : String :=
  if minutes = 0 then "datetime.timezone.utc" else
    let seconds := toString (60 * (minutes % 1440))
    "datetime.timezone(datetime.timedelta(" ++
      (if minutes < 0 then "days=-1, seconds=" else "seconds=") ++ seconds ++ "))"

/-- A day or a point in time as messages show it; seconds are left out where they are zero. -/
def shown (t : Timestamp) : String :=
  let day := [t.year, t.month, t.day]
  match t.time with
  | none => "datetime.date(" ++ ", ".intercalate (day.map toString) ++ ")"
  | some (h, m, s, us, offset) =>
    let clock := if us ≠ 0 then [h, m, s, us] else if s ≠ 0 then [h, m, s] else [h, m]
    "datetime.datetime(" ++ ", ".intercalate ((day ++ clock).map toString) ++
      ((offset.map fun o => ", tzinfo=" ++ shownOffset o).getD "") ++ ")"

end Timestamp

namespace Datum

mutual

/-- A datum as messages show it, with texts in quotes. -/
def shown : Datum → String
  | .null => "None"
  | .truth b => if b then "True" else "False"
  | .integer n => toString n
  | .real x => shortestText x
  | .text s => quoted s
  | .moment t => t.shown
  | .list es => "[" ++ ", ".intercalate (shownAll es) ++ "]"
  | .mapping kvs => "\x7b" ++ ", ".intercalate (shownEntries kvs) ++ "\x7d"

/-- The elements of a list as messages show them. -/
def shownAll : List Datum → List String
  | [] => []
  | e :: es => e.shown :: shownAll es

/-- The entries of a mapping as messages show them. -/
def shownEntries : List (Datum × Datum) → List String
  | [] => []
  | (k, v) :: kvs => (k.shown ++ ": " ++ v.shown) :: shownEntries kvs

end

/-- A datum as a text: texts stand as they are. -/
def display : Datum → String
  | .text s => s
  | .moment t => t.display
  | d => d.shown

mutual

/-- Whether a datum can be written: no integer in it has more than `maxIntegerDigits` digits. -/
def isWritable : Datum → Bool
  | .integer n => n.natAbs < Nat.pow 10 maxIntegerDigits
  | .list es => areWritable es
  | .mapping kvs => entriesWritable kvs
  | _ => true

/-- Whether all elements of a list can be written. -/
def areWritable : List Datum → Bool
  | [] => true
  | e :: es => e.isWritable && areWritable es

/-- Whether all entries of a mapping can be written. -/
def entriesWritable : List (Datum × Datum) → Bool
  | [] => true
  | (k, v) :: kvs => k.isWritable && v.isWritable && entriesWritable kvs

end

/-- Whether a datum counts as present: not null, zero, false or empty. -/
def isPresent : Datum → Bool
  | .null => false
  | .truth b => b
  | .integer n => n != 0
  | .real x => x != 0
  | .text s => s != ""
  | .moment _ => true
  | .list es => !es.isEmpty
  | .mapping kvs => !kvs.isEmpty

mutual

/-- Whether two data are equal as keys: numbers and truth values by their value. -/
def same : Datum → Datum → Bool
  | .null, .null => true
  | .text s, .text t => s == t
  | .moment s, .moment t => s == t
  | .list es, .list es' => sameAll es es'
  | .mapping _, .mapping _ => false
  | d, e =>
    match d.number?, e.number? with
    | some (.inl m), some (.inl n) => m == n
    | some (.inr x), some (.inr y) => x == y
    | some (.inl m), some (.inr y) | some (.inr y), some (.inl m) => exactValue? y == some (m : Rat)
    | _, _ => false

/-- Whether two lists of data are equal element by element. -/
def sameAll : List Datum → List Datum → Bool
  | [], [] => true
  | d :: ds, e :: es => same d e && sameAll ds es
  | _, _ => false

/-- The number that a datum is as a key. -/
def number? : Datum → Option (Int ⊕ Float)
  | .truth b => some (.inl (if b then 1 else 0))
  | .integer n => some (.inl n)
  | .real x => some (.inr x)
  | _ => none

end

/-- What a datum is made up of: the elements of a list, the characters of a text, or keys. -/
def elements? : Datum → Option (List Datum)
  | .list es => some es
  | .text s => some (s.toList.map fun c => .text (String.singleton c))
  | .mapping kvs => some (kvs.map (·.1))
  | _ => none

/-- The entry of a mapping under a text. -/
def entry? (kvs : List (Datum × Datum)) (key : String) : Option Datum :=
  (kvs.find? fun (k, _) => k.same (.text key)).map (·.2)

end Datum
end Formulary
