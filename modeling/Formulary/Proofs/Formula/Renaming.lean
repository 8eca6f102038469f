import Formulary.Expression.Eval
import Formulary.Proofs.Formula.Aliases
import Formulary.Proofs.Formula.Layout
import Formulary.Proofs.Formula.Pieces

/-!
# Aliases segment by segment

A character that belongs to no symbol ends the pieces before it (`piecesFrom_stop`). Therefore the
symbols of a layout are renamed segment by segment (`renamed_text`).
-/

namespace Formulary.Formula

open Formulary.Text Formulary.Token

variable {blocked : Bool} {u v s : List Char} {c : Char}

/-- The pieces before and after a character that stands in no symbol. -/
lemma piecesFrom_stop (hword : isWord c = false) (hprime : c ≠ '\'') :
    piecesFrom blocked (u ++ c :: v) =
      piecesFrom blocked u ++ .other c :: piecesFrom (blocksSymbol c) v := by
  have hprime : (c == '\'') = false := by simpa using hprime
  have hdrop : ∀ {w : List Char} {p : Char → Bool}, p c = false →
      (w ++ c :: v).takeWhile p = w.takeWhile p ∧
        (w ++ c :: v).dropWhile p = w.dropWhile p ++ c :: v := by
    intro w p hp
    induction w with
    | nil => simp [hp]
    | cons d w ih =>
      by_cases hd : p d
      · simp [hd, ih]
      · simp [hd]
  fun_induction piecesFrom blocked u with
  | case1 blocked => simp [piecesFrom, isWordStart, hword]
  | case2 blocked d rest hd word afterWord primes ih =>
    obtain ⟨hword, hafter⟩ := hdrop (w := rest) hword
    obtain ⟨hprimes, hrest⟩ := hdrop (w := afterWord) (p := (· == '\'')) hprime
    rw [List.cons_append, piecesFrom, if_pos hd]
    simp only [hword, hafter]
    rw [hprimes, hrest, ih]
    rfl
  | case3 blocked d rest hd ih => rw [List.cons_append, piecesFrom, if_neg hd, ih, List.cons_append]

/-- A symbol may begin behind a character that does not block it. -/
lemma piecesFrom_cons (hc : blocksSymbol c = false) :
    piecesFrom blocked (u ++ c :: v) =
      piecesFrom blocked u ++ .other c :: piecesFrom false v := by
  have hstop := hc
  simp only [blocksSymbol, Bool.or_eq_false_iff, beq_eq_false_iff_ne] at hstop
  rw [piecesFrom_stop hstop.1.1 hstop.2, hc]

/-- A text with its symbols replaced by aliases, starting from the aliases so far. -/
def renamed (a : Aliases) (s : List Char) : List Char × Aliases := aliasPieces a (pieces s)

/-- Pieces get their aliases one after the other. -/
lemma aliasPieces_append (a : Aliases) (ps qs : List Piece) :
    aliasPieces a (ps ++ qs) =
      ((aliasPieces a ps).1 ++ (aliasPieces (aliasPieces a ps).2 qs).1,
        (aliasPieces (aliasPieces a ps).2 qs).2) := by
  induction ps generalizing a with
  | nil => rfl
  | cons p ps ih => simp [aliasPieces, ih]

/-- Renaming passes over a character that stands in no symbol. -/
lemma renamed_cons {a : Aliases} (hc : blocksSymbol c = false) :
    renamed a (u ++ c :: v) =
      ((renamed a u).1 ++ c :: (renamed (renamed a u).2 v).1,
        (renamed (renamed a u).2 v).2) := by
  rw [renamed, pieces, piecesFrom_cons hc, aliasPieces_append]
  rfl

/-- Nothing is renamed in the empty text. -/
@[simp]
lemma renamed_nil (a : Aliases) : renamed a [] = ([], a) := by
  simp [renamed, pieces, piecesFrom, aliasPieces]

/-- A character that does not block symbols is left alone. -/
lemma renamed_cons_head {a : Aliases} (hc : blocksSymbol c = false) :
    renamed a (c :: v) = (c :: (renamed a v).1, (renamed a v).2) := by
  have h := renamed_cons (a := a) (u := []) (v := v) hc
  rwa [renamed_nil] at h

/-- The text of a conversion has no symbol that is renamed. -/
lemma renamed_conversion (a : Aliases) :
    renamed a " * pi / 180".toList = (" * pi / 180".toList, a) := by
  have hpieces : pieces " * pi / 180".toList =
      [.other ' ', .other '*', .other ' ', .symbol ['p', 'i'], .other ' ', .other '/', .other ' ',
        .other '1', .other '8', .other '0'] := by
    rw [pieces, ← piecesWithin_eq (Nat.le_refl _)]
    decide
  have hpi : isReserved "pi" := by decide
  rw [renamed, hpieces]
  simp [aliasPieces, Piece.aliased, hpi]

namespace Layout

/-- A layout with the symbols of its segments replaced by aliases, and the aliases. -/
def renamed (a : Aliases) : Layout → Layout × Aliases
  | plain w =>
    let (w, a) := Formula.renamed a w
    (plain w, a)
  | paren m w i r =>
    let (w, a) := Formula.renamed a w
    let (i, a) := i.renamed a
    let (r, a) := r.renamed a
    (paren m w i r, a)

/-- The symbols of a layout are renamed segment by segment. -/
theorem renamed_text (a : Aliases) (t : Layout) :
    Formula.renamed a t.text = ((t.renamed a).1.text, (t.renamed a).2) := by
  induction t generalizing a with
  | plain w => rfl
  | paren m w i r ihi ihr =>
    cases m with
    | false =>
      simp only [text, wrap, Bool.false_eq_true, if_false, renamed]
      rw [renamed_cons (by decide), renamed_cons (by decide), ihi, ihr]
    | true =>
      simp only [text, wrap, if_true, renamed, List.cons_append, List.append_assoc]
      rw [renamed_cons (by decide), renamed_cons_head (by decide), renamed_cons (by decide),
        renamed_cons (by decide), renamed_conversion, ihi, ihr]

/-- A layout with every segment replaced. -/
def map (f : List Char → List Char) : Layout → Layout
  | plain w => plain (f w)
  | paren m w i r => paren m (f w) (i.map f) (r.map f)

/-- The power signs of a layout are those of its segments. -/
lemma withPowerSigns_text (t : Layout) :
    withPowerSigns t.text = (t.map withPowerSigns).text := by
  have happend : ∀ s s', withPowerSigns (s ++ s') = withPowerSigns s ++ withPowerSigns s' :=
    fun _ _ => List.flatMap_append
  have hcons : ∀ {c s}, c ≠ '^' → withPowerSigns (c :: s) = c :: withPowerSigns s := by
    intro c s hc
    simp [withPowerSigns, hc]
  have hconversion : withPowerSigns " * pi / 180".toList = " * pi / 180".toList := by decide
  induction t with
  | plain w => rfl
  | paren m w i r ihi ihr =>
    cases m with
    | false =>
      simp only [text, map, wrap, Bool.false_eq_true, if_false]
      rw [happend, hcons (by decide), happend, hcons (by decide), ihi, ihr]
    | true =>
      simp only [text, map, wrap, if_true, List.cons_append, List.append_assoc]
      rw [happend, hcons (by decide), hcons (by decide), happend, hcons (by decide), happend,
        hcons (by decide), hconversion, ihi, ihr]

/-- A layout as it is read: with aliases for its symbols and the power signs of expressions. -/
def prepared (a : Aliases) (t : Layout) : Layout := (t.renamed a).1.map withPowerSigns

/-- A difference is read as the difference of its sides. -/
theorem aliased_difference (l r : Layout) :
    withPowerSigns (aliased (difference l r)).1 =
        difference (l.prepared []) (r.prepared (l.renamed []).2) ∧
      (aliased (difference l r)).2 = (r.renamed (l.renamed []).2).2 := by
  have htext : difference l r =
      '(' :: (l.text ++ ')' :: (' ' :: '-' :: ' ' :: '(' :: (r.text ++ [')']))) := by
    simp [difference]
  have hrenamed : aliased (difference l r) =
      (difference (l.renamed []).1 (r.renamed (l.renamed []).2).1,
        (r.renamed (l.renamed []).2).2) := by
    have : aliased (difference l r) = Formula.renamed [] (difference l r) := rfl
    rw [this, htext, renamed_cons_head (by decide), renamed_cons (by decide),
      renamed_cons_head (by decide), renamed_cons_head (by decide), renamed_cons_head (by decide),
      renamed_cons_head (by decide), renamed_cons (by decide), renamed_nil, renamed_text, renamed_text]
    simp [difference]
  refine ⟨?_, by rw [hrenamed]⟩
  rw [hrenamed]
  have hsides : ∀ t t' : Layout, withPowerSigns (difference t t') =
      difference (t.map withPowerSigns) (t'.map withPowerSigns) := by
    intro t t'
    rw [difference, difference, ← withPowerSigns_text, ← withPowerSigns_text]
    simp [withPowerSigns]
  exact hsides _ _

end Layout
end Formulary.Formula
