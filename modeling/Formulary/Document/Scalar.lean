import Formulary.Datum
import Formulary.Number.Reading

/-!
# Plain scalars

What an unquoted word of a document stands for: null, a truth value, an integer in base two, eight,
ten, sixteen or sixty, a real number in base ten or sixty, a day or a point in time, and else a
text. The first form that fits counts.
-/

namespace Formulary.Document

open Formulary.Number

/-- Why a document cannot be read. -/
inductive Fault where
  /-- the text is no document -/
  | malformed
  /-- a day or time that does not exist, or an integer with too many digits -/
  | invalidValue
  deriving Repr, DecidableEq

/-- Digits and underscores. -/
def isDigitOrBar (c : Char) : Bool := c.isDigit || c == '_'

/-- The digits of base sixteen. -/
def isHexDigit (c : Char) : Bool :=
  c.isDigit || ('a' ≤ c && c ≤ 'f') || ('A' ≤ c && c ≤ 'F')

/-- The digits of a text without underscores. -/
def withoutBars (s : List Char) : List Char := s.filter (· != '_')

/-- A sign and what follows it. -/
def splitSign : List Char → Bool × List Char
  | '-' :: s => (true, s)
  | '+' :: s => (false, s)
  | s => (false, s)

/-- The value of digits in a base up to sixteen. -/
def natInBase (base : Nat) (s : List Char) : Nat :=
  let value (c : Char) : Nat :=
    if c.isDigit then c.toNat - 48 else if 'a' ≤ c then c.toNat - 87 else c.toNat - 55
  s.foldl (fun n c => base * n + value c) 0

/-- The parts of a text between colons. -/
def splitAtColons : List Char → List (List Char)
  | [] => [[]]
  | c :: rest =>
    match splitAtColons rest with
    | [] => [[]]
    | part :: parts => if c = ':' then [] :: part :: parts else (c :: part) :: parts

/-- A digit in base sixty: one or two decimal digits below sixty. -/
def isSexagesimal : List Char → Bool
  | [a] => a.isDigit
  | [a, b] => '0' ≤ a && a ≤ '5' && b.isDigit
  | _ => false

/-- A number with parts in base sixty. -/
def natOfSexagesimal (parts : List (List Char)) : Nat :=
  parts.foldl (fun n p => 60 * n + natOfDigits 0 p) 0

/-- The integer that a word stands for. -/
def integer? (s : List Char) : Option (Except Fault Int) :=
  let (negative, body) := splitSign s
  let signed (n : Nat) : Except Fault Int := .ok (if negative then -(n : Int) else n)
  match body with
  | ['0'] => some (signed 0)
  | '0' :: 'b' :: ds =>
    if !ds.isEmpty && ds.all (fun c => c == '0' || c == '1' || c == '_') then
      if (withoutBars ds).isEmpty then some (.error .invalidValue)
      else some (signed (natInBase 2 (withoutBars ds)))
    else none
  | '0' :: 'x' :: ds =>
    if !ds.isEmpty && ds.all (fun c => isHexDigit c || c == '_') then
      if (withoutBars ds).isEmpty then some (.error .invalidValue)
      else some (signed (natInBase 16 (withoutBars ds)))
    else none
  | '0' :: ds =>
    if ds.all (fun c => ('0' ≤ c && c ≤ '7') || c == '_') then
      some (signed (natInBase 8 (withoutBars ds)))
    else none
  | c :: ds =>
    if !c.isDigit then none
    else match splitAtColons (c :: ds) with
      | [ds] =>
        if ds.all isDigitOrBar then
          let ds := withoutBars ds
          some (if maxIntegerDigits < ds.length then .error .invalidValue
            else signed (natOfDigits 0 ds))
        else none
      | ds :: parts =>
        if ds.all isDigitOrBar && parts.all isSexagesimal then
          some (signed (natOfSexagesimal (withoutBars ds :: parts)))
        else none
      | [] => none
  | [] => none

/-- An exponent part of a real number, which needs a sign; nothing if there is something else. -/
def isExponent : List Char → Bool
  | [] => true
  | e :: sign :: ds =>
    (e == 'e' || e == 'E') && (sign == '-' || sign == '+') && !ds.isEmpty && ds.all Char.isDigit
  | _ => false

/-- The decimal that a plain text spells. -/
def decimalOf (s : List Char) : Float :=
  match takeDecimal? s with
  | some (n, e, _) => Decimal.toFloat ⟨false, n, e⟩
  | none => 0.0

/--
The value of parts in base sixty, the last of which may have places; it is summed up from the last
on.
-/
def sexagesimal (parts : List Float) : Float :=
  (parts.foldr (fun x (sum, unit) => (sum + x * unit, unit * 60.0)) (0.0, 1.0)).1

/-- The real number that a word stands for. -/
def real? (s : List Char) : Option Float :=
  let (negative, body) := splitSign s
  let word := String.ofList body
  if word = ".inf" ∨ word = ".Inf" ∨ word = ".INF" then some (withSign negative (1.0 / 0.0))
  else if s = body ∧ (word = ".nan" ∨ word = ".NaN" ∨ word = ".NAN") then some (0.0 / 0.0)
  else match body with
    | '.' :: ds =>
      let digits := ds.takeWhile isDigitOrBar
      if s = body ∧ digits.head?.any Char.isDigit ∧ isExponent (ds.dropWhile isDigitOrBar) then
        some (decimalOf (withoutBars body))
      else none
    | c :: _ =>
      if !c.isDigit then none else
        let whole := body.takeWhile fun c => isDigitOrBar c || c == ':'
        match body.dropWhile fun c => isDigitOrBar c || c == ':' with
        | '.' :: places =>
          match splitAtColons whole with
          | [_] =>
            if isExponent (places.dropWhile isDigitOrBar) then
              some (withSign negative (decimalOf (withoutBars body)))
            else none
          | first :: parts =>
            if first.all isDigitOrBar && parts.all isSexagesimal && places.all isDigitOrBar then
              let parts := splitAtColons (withoutBars body)
              some (withSign negative (sexagesimal (parts.map decimalOf)))
            else none
          | [] => none
        | _ => none
    | [] => none

/-- The number of days of a month. -/
def daysOfMonth (year month : Nat) : Nat :=
  if month = 2 then if year % 4 = 0 ∧ (year % 100 ≠ 0 ∨ year % 400 = 0) then 29 else 28
  else if month = 4 ∨ month = 6 ∨ month = 9 ∨ month = 11 then 30 else 31

/-- Whether a day exists. -/
def isDay (year month day : Nat) : Bool :=
  1 ≤ year && 1 ≤ month && month ≤ 12 && 1 ≤ day && day ≤ daysOfMonth year month

/-- From `least` to `most` digits at the beginning of a text. -/
def takeNumber? (least most : Nat) (s : List Char) : Option (Nat × List Char) :=
  let ds := (s.takeWhile Char.isDigit).take most
  if ds.length < least then none else some (natOfDigits 0 ds, s.drop ds.length)

/-- A given character at the beginning of a text. -/
def takeChar? (c : Char) : List Char → Option (List Char)
  | d :: rest => if c = d then some rest else none
  | [] => none

/-- The offset at the end of a point in time, in minutes; no offset stands for itself. -/
def offset? (s : List Char) : Option (Option Int) :=
  match s.dropWhile fun c => c == ' ' || c == '\t' with
  | [] => if s.isEmpty then some none else none
  | ['Z'] => some (some 0)
  | sign :: rest =>
    if sign != '-' && sign != '+' then none else do
      let (h, rest) ← takeNumber? 1 2 rest
      let m ← match rest with
        | [] => some 0
        | ':' :: rest => do
          let (m, rest) ← takeNumber? 2 2 rest
          if rest.isEmpty then some m else none
        | _ => none
      let minutes : Int := 60 * h + m
      some (some (if sign == '-' then -minutes else minutes))

/-- The day or point in time that a word stands for. -/
def timestamp? (s : List Char) : Option (Except Fault Timestamp) := do
  let (year, rest) ← takeNumber? 4 4 s
  let rest ← takeChar? '-' rest
  let (month, rest) ← takeNumber? 1 2 rest
  let rest ← takeChar? '-' rest
  let (day, rest) ← takeNumber? 1 2 rest
  let valid (t : Timestamp) : Except Fault Timestamp :=
    if isDay year month day then .ok t else .error .invalidValue
  match rest with
  | [] => if s.length = 10 then some (valid ⟨year, month, day, none⟩) else none
  | c :: after =>
    let rest ←
      if c = 'T' ∨ c = 't' then some after
      else if c = ' ' ∨ c = '\t' then some (rest.dropWhile fun c => c == ' ' || c == '\t')
      else none
    let (h, rest) ← takeNumber? 1 2 rest
    let rest ← takeChar? ':' rest
    let (m, rest) ← takeNumber? 2 2 rest
    let rest ← takeChar? ':' rest
    let (sec, rest) ← takeNumber? 2 2 rest
    let (fraction, rest) := match rest with
      | '.' :: rest => (rest.takeWhile Char.isDigit, rest.dropWhile Char.isDigit)
      | rest => ([], rest)
    let offset ← offset? rest
    let us := natOfDigits 0 ((fraction ++ List.replicate 6 '0').take 6)
    if h < 24 ∧ m < 60 ∧ sec < 60 ∧ (offset.all fun minutes => minutes.natAbs < 1440) then
      some (valid ⟨year, month, day, some (h, m, sec, us, offset)⟩)
    else some (.error .invalidValue)

/-- The words for truth values. -/
def truth? (s : String) : Option Bool :=
  let yes := ["yes", "Yes", "YES", "true", "True", "TRUE", "on", "On", "ON"]
  let no := ["no", "No", "NO", "false", "False", "FALSE", "off", "Off", "OFF"]
  if yes.contains s then some true else if no.contains s then some false else none

/-- The words for null. -/
def isNull (s : String) : Bool := ["", "~", "null", "Null", "NULL"].contains s

/-- The word that is reserved for default values. -/
def defaultWord : String := "="

/-- The word under which a mapping includes others. -/
def includeWord : String := "<<"

/--
The datum that an unquoted word stands for; the words that belong to mappings stand for nothing.
-/
def plain (cs : List Char) : Except Fault Datum :=
  let s := String.ofList cs
  if isNull s then .ok .null
  else if s = defaultWord ∨ s = includeWord then .error .malformed
  else match truth? s with
    | some b => .ok (.truth b)
    | none =>
      match integer? cs with
      | some r => Datum.integer <$> r
      | none =>
        match real? cs with
        | some x => .ok (.real x)
        | none =>
          match timestamp? cs with
          | some r => Datum.moment <$> r
          | none => .ok (.text s)

/-- The real number that a text stands for whose kind is given. -/
def taggedReal (cs : List Char) : Except Fault Float :=
  let (negative, body) := splitSign ((withoutBars cs).map Char.toLower)
  let word := String.ofList body
  if word = ".inf" then .ok (withSign negative (1.0 / 0.0))
  else if word = ".nan" then .ok (0.0 / 0.0)
  else
    let part (p : List Char) : Except Fault Float :=
      match readFloat? (String.ofList p) with
      | some x => .ok x
      | none => .error .invalidValue
    match splitAtColons body with
    | [p] => withSign negative <$> part p
    | parts => do return withSign negative (sexagesimal (← parts.mapM part))

/-- The integer that a text stands for whose kind is given. -/
def taggedInteger (cs : List Char) : Except Fault Int :=
  match integer? cs with
  | some r => r
  | none =>
    match readInt? (String.ofList (withoutBars cs)) with
    | some n => .ok n
    | none => .error .invalidValue

/-- The datum that a text stands for whose kind is given by its short name. -/
def tagged (kind : String) (cs : List Char) : Except Fault Datum :=
  match kind with
  | "str" => .ok (.text (String.ofList cs))
  | "null" => .ok .null
  | "bool" =>
    match truth? (String.ofList (cs.map Char.toLower)) with
    | some b => .ok (.truth b)
    | none => .error .malformed
  | "int" => .integer <$> taggedInteger cs
  | "float" => .real <$> taggedReal cs
  | "timestamp" =>
    match timestamp? cs with
    | some r => .moment <$> r
    | none => .error .malformed
  | _ => .error .malformed

end Formulary.Document
