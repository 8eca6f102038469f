import Formulary.Document.Token
import Formulary.Table

/-!
# The tree of a document

The tokens of a document make a tree of scalars, sequences and mappings. A node may carry a tag,
and an anchor under which later parts of the document refer to it; a reference stands for a copy of
the node. `Node.ofTokens?` reads a whole document: one tree, or none if there is nothing in it.
-/

namespace Formulary.Document

/-- A part of a document. -/
inductive Node where
  /-- a text, whose kind is found from the text itself where no kind is given -/
  | scalar (kind : Option String) (text : List Char)
  | sequence (kind : Option String) (elements : List Node)
  | mapping (kind : Option String) (entries : List (Node × Node))
  deriving Repr, Inhabited

namespace Node

/-- The tokens that are still to be read, and the nodes that have names. -/
structure Pending where
  tokens : List Token
  anchors : Table Node

/-- Reading from the tokens of a document. -/
abbrev Reading := StateT Pending (Except Fault)

/-- A node without any text. -/
def empty : Node := .scalar none []

/-- Whether one of some tokens comes next. -/
def sees (ts : List Token) : Reading Bool := do return (← get).tokens.head?.any ts.contains

/-- Takes a token if it comes next. -/
def accept (t : Token) : Reading Bool := do
  let found ← sees [t]
  if found then modify fun s => { s with tokens := s.tokens.tail }
  return found

/-- Takes a token that has to come next. -/
def expect (t : Token) : Reading Unit := do
  if !(← accept t) then throw .malformed

/-- An anchor and a tag in front of a node, in either order. -/
def properties : Reading (Option String × Option (Option String)) := do
  match (← get).tokens with
  | .anchor a :: .tag k :: rest | .tag k :: .anchor a :: rest =>
    modify fun s => { s with tokens := rest }
    return (some a, some k)
  | .anchor a :: rest =>
    modify fun s => { s with tokens := rest }
    return (some a, none)
  | .tag k :: rest =>
    modify fun s => { s with tokens := rest }
    return (none, some k)
  | _ => return (none, none)

/-- Gives a node its name; a name can be given once. -/
def name (anchor : Option String) (n : Node) : Reading Node := do
  match anchor with
  | none => return n
  | some a =>
    if ((← get).anchors.get? a).isSome then throw .malformed
    modify fun s => { s with anchors := s.anchors.put a n }
    return n

/-- The tokens that end the value of an entry that is written by indentation. -/
def blockEnds : List Token := [.key, .value, .blockEnd]

mutual

/--
A node. `block` says whether indentation counts here, and `indentless` whether the elements of a
sequence may stand at the column of the key that they belong to.
-/
def read (block indentless : Bool) : Nat → Reading Node
  | 0 => throw .malformed
  | n + 1 => do
    match (← get).tokens with
    | .reference a :: rest =>
      match (← get).anchors.get? a with
      | some node =>
        modify fun s => { s with tokens := rest }
        return node
      | none => throw .malformed
    | _ =>
      let (anchor, tag) ← properties
      let kind := tag.join
      let named := Node.name anchor
      if indentless && (← sees [.blockEntry]) then
        named (.sequence kind (← indentlessElements n))
      else match (← get).tokens with
        | .scalar text isPlain :: rest =>
          modify fun s => { s with tokens := rest }
          -- quotes make a text, unless a tag says otherwise
          named (.scalar (if isPlain || tag.isSome then kind else some "str") text)
        | .flowSequence :: rest =>
          modify fun s => { s with tokens := rest }
          named (.sequence kind (← flowElements true n))
        | .flowMapping :: rest =>
          modify fun s => { s with tokens := rest }
          named (.mapping kind (← flowEntries true n))
        | t :: rest =>
          if block && t == .blockSequence then
            modify fun s => { s with tokens := rest }
            named (.sequence kind (← blockElements n))
          else if block && t == .blockMapping then
            modify fun s => { s with tokens := rest }
            named (.mapping kind (← blockEntries n))
          else if anchor.isSome || tag.isSome then named (.scalar kind [])
          else throw .malformed
        | [] => if anchor.isSome || tag.isSome then named (.scalar kind []) else throw .malformed

/-- A node, or an empty one if one of some tokens comes next. -/
def readUnless (ends : List Token) (block indentless : Bool) : Nat → Reading Node
  | 0 => throw .malformed
  | n + 1 => do if ← sees ends then return Node.empty else read block indentless n

/-- The elements of a sequence that is written by indentation. -/
def blockElements : Nat → Reading (List Node)
  | 0 => throw .malformed
  | n + 1 => do
    if ← accept .blockEntry then
      let e ← readUnless [.blockEntry, .blockEnd] true false n
      return e :: (← blockElements n)
    else
      expect .blockEnd
      return []

/-- The elements of a sequence without indentation of its own. -/
def indentlessElements : Nat → Reading (List Node)
  | 0 => throw .malformed
  | n + 1 => do
    if ← accept .blockEntry then
      let e ← readUnless (.blockEntry :: blockEnds) true false n
      return e :: (← indentlessElements n)
    else return []

/-- The entries of a mapping that is written by indentation. -/
def blockEntries : Nat → Reading (List (Node × Node))
  | 0 => throw .malformed
  | n + 1 => do
    if ← accept .key then
      let k ← readUnless blockEnds true true n
      let v ← if ← accept .value then readUnless blockEnds true true n else pure Node.empty
      return (k, v) :: (← blockEntries n)
    else
      expect .blockEnd
      return []

/-- The elements of a sequence in brackets; an entry with a key is a mapping of its own. -/
def flowElements (isFirst : Bool) : Nat → Reading (List Node)
  | 0 => throw .malformed
  | n + 1 => do
    if ← accept .flowSequenceEnd then return []
    if !isFirst then expect .flowEntry
    if ← accept .key then
      let k ← readUnless [.value, .flowEntry, .flowSequenceEnd] false false n
      let v ← flowValue .flowSequenceEnd n
      return .mapping none [(k, v)] :: (← flowElements false n)
    else if ← accept .flowSequenceEnd then return []
    else
      let e ← read false false n
      return e :: (← flowElements false n)

/-- The entries of a mapping in braces. -/
def flowEntries (isFirst : Bool) : Nat → Reading (List (Node × Node))
  | 0 => throw .malformed
  | n + 1 => do
    if ← accept .flowMappingEnd then return []
    if !isFirst then expect .flowEntry
    if ← accept .key then
      let k ← readUnless [.value, .flowEntry, .flowMappingEnd] false false n
      let v ← flowValue .flowMappingEnd n
      return (k, v) :: (← flowEntries false n)
    else if ← accept .flowMappingEnd then return []
    else
      let k ← read false false n
      return (k, Node.empty) :: (← flowEntries false n)

/-- The value of an entry between brackets; without a colon it is empty. -/
def flowValue (ending : Token) : Nat → Reading Node
  | 0 => throw .malformed
  | n + 1 => do
    if ← accept .value then readUnless [.flowEntry, ending] false false n else return Node.empty

end

/-- Takes the directives in front of a document; each may stand there once. -/
def directives : Nat → Bool → List String → Reading Unit
  | 0, _, _ => throw .malformed
  | n + 1, versioned, handles => do
    match (← get).tokens with
    | .version major :: rest =>
      if versioned || major != 1 then throw .malformed
      modify fun s => { s with tokens := rest }
      directives n true handles
    | .tagHandle handle :: rest =>
      if handles.contains handle then throw .malformed
      modify fun s => { s with tokens := rest }
      directives n versioned (handle :: handles)
    | .otherDirective :: rest =>
      modify fun s => { s with tokens := rest }
      directives n versioned handles
    | _ => return

/-- Takes all marks of the end of a document that come next. -/
def documentEnds : Reading Unit :=
  modify fun s => { s with tokens := s.tokens.dropWhile (· == .documentEnd) }

/-- Whether directives or the beginning of a document come next. -/
def beginsDocument : List Token → Bool
  | .version _ :: _ | .tagHandle _ :: _ | .otherDirective :: _ | .documentStart :: _ => true
  | _ => false

/-- The one document that the tokens hold. -/
def document : Reading (Option Node) := do
  let ts := (← get).tokens
  -- no step reads without taking a token for more than four steps
  let fuel := 4 * ts.length + 4
  if ts.isEmpty then return none
  let node ←
    if beginsDocument ts then do
      directives fuel false []
      expect .documentStart
      match (← get).tokens with
      | [] | .documentEnd :: _ => pure Node.empty
      | ts => if beginsDocument ts then pure Node.empty else read true false fuel
    else read true false fuel
  documentEnds
  if !(← get).tokens.isEmpty then throw .malformed
  return some node

/-- The tree of a document; a document without any content has none. -/
def ofTokens? (ts : List Token) : Except Fault (Option Node) := do
  let (node, _) ← document.run ⟨ts, []⟩
  return node

end Node
end Formulary.Document
