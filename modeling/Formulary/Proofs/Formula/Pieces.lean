import Mathlib
import Formulary.Formula.Alias

/-!
# Pieces by structural recursion

`piecesFrom` recurses on what a symbol leaves of the text. `piecesWithin` is the same function on a
bound for the length, so that the pieces of a given text can be computed in a proof (`aliased_eq`).
-/

namespace Formulary.Formula

open Formulary.Text

/-- The pieces of a text that is no longer than a bound. -/
def piecesWithin : Nat → Bool → List Char → List Piece
  | 0, _, _ => []
  | _ + 1, _, [] => []
  | n + 1, blocked, c :: rest =>
    if !blocked && isWordStart c then
      let afterWord := rest.dropWhile isWord
      .symbol (c :: rest.takeWhile isWord ++ afterWord.takeWhile (· == '\'')) ::
        piecesWithin n true (afterWord.dropWhile (· == '\''))
    else .other c :: piecesWithin n (blocksSymbol c) rest

/-- With enough fuel all pieces of a text are found. -/
lemma piecesWithin_eq {n : Nat} {blocked : Bool} {s : List Char} (h : s.length ≤ n) :
    piecesWithin n blocked s = piecesFrom blocked s := by
  induction n generalizing blocked s with
  | zero =>
    cases List.length_eq_zero_iff.1 (Nat.le_zero.1 h)
    simp [piecesWithin, piecesFrom]
  | succ n ih =>
    cases s with
    | nil => simp [piecesWithin, piecesFrom]
    | cons c rest =>
      have hrest : rest.length ≤ n := Nat.le_of_succ_le_succ h
      have hdrop : ((rest.dropWhile isWord).dropWhile (· == '\'')).length ≤ n :=
        Nat.le_trans ((List.dropWhile_suffix _).trans (List.dropWhile_suffix _)).length_le hrest
      simp only [piecesWithin, piecesFrom]
      rw [ih hrest, ih hdrop]

/-- The symbols of a text are replaced piece by piece, whatever the recursion that finds them. -/
lemma aliased_eq (s : List Char) : aliased s = aliasPieces [] (piecesWithin s.length false s) := by
  rw [piecesWithin_eq (Nat.le_refl _)]
  rfl

end Formulary.Formula
