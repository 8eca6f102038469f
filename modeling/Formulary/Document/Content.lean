import Formulary.Document.Node

/-!
# What a document says

The tree of a document becomes a datum: scalars become what their words stand for, and a mapping
keeps each key once, at its first place with its last value (`Datum.putEntry`). A mapping may
include the entries of others; its own entries come after those. `Datum.ofDocument` reads a text as
a datum.
-/

namespace Formulary

open Formulary.Document

namespace Datum

/--
The entries of a mapping with one more: a key that is there keeps its place and takes the new
value.
-/
def putEntry (key value : Datum) : List (Datum × Datum) → List (Datum × Datum)
  | [] => [(key, value)]
  | (k, v) :: rest => if k.same key then (k, value) :: rest else (k, v) :: putEntry key value rest

/-- Whether a datum can be a key. -/
def isKey : Datum → Bool
  | .list _ | .mapping _ => false
  | _ => true

/--
The entries that a mapping includes: those of one mapping, or of several, where the first ones
win.
-/
def includedEntries : Datum → Except Fault (List (Datum × Datum))
  | .mapping kvs => .ok kvs
  | .list es => do
    let all ← es.mapM fun
      | .mapping kvs => .ok kvs
      | _ => .error .malformed
    return all.reverse.flatten
  | _ => .error .malformed

end Datum

namespace Document.Node

mutual

/-- The datum of a tree. -/
def datum : Node → Except Fault Datum
  | .scalar none text => plain text
  | .scalar (some kind) text => tagged kind text
  | .sequence kind es => do
    if kind.any (· != "seq") then throw .malformed
    return .list (← elementData es)
  | .mapping kind kvs => do
    if kind.any (· != "map") then throw .malformed
    let (included, own) ← entryData kvs
    return .mapping ((included ++ own).foldl (fun kvs (k, v) => Datum.putEntry k v kvs) [])

/-- The data of the elements of a sequence. -/
def elementData : List Node → Except Fault (List Datum)
  | [] => .ok []
  | e :: es => do
    let d ← datum e
    return d :: (← elementData es)

/-- The entries that a mapping includes, and its own. -/
def entryData : List (Node × Node) → Except Fault (List (Datum × Datum) × List (Datum × Datum))
  | [] => .ok ([], [])
  | (k, v) :: rest => do
    match k with
    | .scalar none text =>
      if String.ofList text = includeWord then
        let more ← (← datum v).includedEntries
        let (included, own) ← entryData rest
        return (more ++ included, own)
      else
        let key ← if String.ofList text = defaultWord then pure (.text defaultWord) else plain text
        let value ← datum v
        let (included, own) ← entryData rest
        return (included, (key, value) :: own)
    | k =>
      let key ← datum k
      if !key.isKey then throw .malformed
      let value ← datum v
      let (included, own) ← entryData rest
      return (included, (key, value) :: own)

end

end Document.Node

/-- What a text says as a document; a document without any content says null. -/
def Datum.ofDocument (text : String) : Except Fault Datum := do
  match ← Node.ofTokens? (← Token.ofText text) with
  | none => return .null
  | some node => node.datum

end Formulary
