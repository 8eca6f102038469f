import Formulary.Formula.Names

/-!
# Aliases

Symbols may be primed, may be words of the expression language, and may come from any script.
Before an expression is read, each is replaced by a plain alias: `_s0`, `_s1`, and so on in the
order of first appearance. Reserved names stay. `pieces` cuts a text into the symbols and the
characters between them, and `text_pieces` says that nothing is lost.
-/

namespace Formulary.Formula

open Formulary.Text

/-- A symbol in a text, or a character that belongs to none. -/
inductive Piece where
  | symbol (name : List Char)
  | other (c : Char)
  deriving Repr, DecidableEq

/-- The characters of a piece. -/
def Piece.text : Piece → List Char
  | .symbol name => name
  | .other c => [c]

/-- Whether a symbol cannot begin after this character. -/
def blocksSymbol (c : Char) : Bool := isWord c || c == '.' || c == '\''

/--
The pieces of a text; `blocked` says that no symbol may begin at its first character because of the
one before it. A symbol is as long as possible.
-/
def piecesFrom (blocked : Bool) : List Char → List Piece
  | [] => []
  | c :: rest =>
    if !blocked && isWordStart c then
      let word := rest.takeWhile isWord
      let afterWord := rest.dropWhile isWord
      let primes := afterWord.takeWhile (· == '\'')
      .symbol (c :: word ++ primes) :: piecesFrom true (afterWord.dropWhile (· == '\''))
    else .other c :: piecesFrom (blocksSymbol c) rest
termination_by s => s.length
decreasing_by
  · have h1 := (List.dropWhile_suffix (p := (· == '\'')) (l := rest.dropWhile isWord)).length_le
    have h2 := (List.dropWhile_suffix (p := isWord) (l := rest)).length_le
    simp only [List.length_cons]
    omega
  · simp

/-- The pieces of a text. -/
def pieces (s : List Char) : List Piece := piecesFrom false s

/-- The pieces of a text make up the text. -/
theorem text_piecesFrom (blocked : Bool) (s : List Char) :
    (piecesFrom blocked s).flatMap Piece.text = s := by
  fun_induction piecesFrom blocked s with
  | case1 => rfl
  | case2 blocked c rest hc word afterWord primes ih =>
    simp only [List.flatMap_cons, Piece.text, ih, List.cons_append, List.append_assoc]
    rw [List.takeWhile_append_dropWhile, List.takeWhile_append_dropWhile]
  | case3 blocked c rest hc ih => simp [Piece.text, ih]

/-- The pieces of a text spell the text. -/
theorem text_pieces (s : List Char) : (pieces s).flatMap Piece.text = s := text_piecesFrom false s

/-- Symbols with their aliases, in the order of first appearance. -/
abbrev Aliases := List (String × String)

/-- The alias that the next new symbol gets. -/
def Aliases.next (a : Aliases) : String := "_s" ++ toString a.length

/-- The symbol that an alias stands for. -/
def Aliases.symbolOf? (a : Aliases) (name : String) : Option String :=
  (a.find? (·.2 == name)).map (·.1)

/-- The text of one piece under the aliases so far, and the aliases after it. -/
def Piece.aliased (a : Aliases) : Piece → List Char × Aliases
  | .other c => ([c], a)
  | .symbol name =>
    let s := String.ofList name
    if isReserved s then (name, a)
    else match a.lookup s with
      | some known => (known.toList, a)
      | none => (a.next.toList, a ++ [(s, a.next)])

/-- Pieces written with aliases, starting from the aliases so far. -/
def aliasPieces (a : Aliases) : List Piece → List Char × Aliases
  | [] => ([], a)
  | p :: ps =>
    let (text, a) := p.aliased a
    let (texts, a) := aliasPieces a ps
    (text ++ texts, a)

/-- The text with its symbols replaced by aliases, and the aliases. -/
def aliased (s : List Char) : List Char × Aliases := aliasPieces [] (pieces s)

end Formulary.Formula
