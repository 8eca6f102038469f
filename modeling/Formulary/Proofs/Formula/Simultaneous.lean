import Formulary.Proofs.Formula.Order

/-!
# Writing in all values at once

A pass over a text can replace the free-standing names of all bindings together
(`substituteAtOnce`). The values of finite doubles hold no name, and a replaced name stands apart
from what is around it. Therefore the values may as well be written in one after the other, in any
order (`foldl_substitute`).
-/

namespace Formulary.Formula

open Formulary.Text Formulary.Number

/-- Replaces one free-standing occurrence of any of the bound names. -/
def anyOccurrence (bindings : List (String × Float)) : Rule := fun before following =>
  bindings.findSome? fun b => occurrence b.1.toList (literal b.2) before following

/-- The formula with the values of all bound names written in by one pass. -/
def substituteAtOnce (s : List Char) (bindings : List (String × Float)) : List Char :=
  replaceBy (anyOccurrence bindings) s

/-- The value that is written in place of a run. -/
def valueOf? (bindings : List (String × Float)) (r : List Char) : Option (List Char) :=
  bindings.findSome? fun b => if r = b.1.toList then some (literal b.2) else none

/-- The first value that is found is that of the head, or else of the tail. -/
lemma findSome?_cons_or {α β : Type} {f : α → Option β} {a : α} {l : List α} :
    (a :: l).findSome? f = (f a).or (l.findSome? f) := by
  rw [List.findSome?_cons]
  cases f a <;> rfl

/-- The value of a run is that of the first binding, or else of the others. -/
lemma valueOf?_cons {b : String × Float} {bindings : List (String × Float)} {r : List Char} :
    valueOf? (b :: bindings) r =
      (if r = b.1.toList then some (literal b.2) else none).or (valueOf? bindings r) :=
  findSome?_cons_or

/-- Bindings of distinct symbols to finite values. -/
structure AreFinite (bindings : List (String × Float)) : Prop where
  nodup : (bindings.map (·.1)).Nodup
  symbol : ∀ b ∈ bindings, isSymbol b.1.toList
  finite : ∀ b ∈ bindings, b.2.isFinite

variable {s : List Char} {bindings bindings' : List (String × Float)}

namespace AreFinite

/-- All but the first of finite bindings are finite. -/
lemma tail {b : String × Float} (h : AreFinite (b :: bindings)) : AreFinite bindings where
  nodup := (List.nodup_cons.1 h.nodup).2
  symbol c hc := h.symbol c (List.mem_cons_of_mem b hc)
  finite c hc := h.finite c (List.mem_cons_of_mem b hc)

/-- Finite bindings may be taken in any order. -/
lemma perm (h : AreFinite bindings) (hp : bindings.Perm bindings') : AreFinite bindings' where
  nodup := (hp.map _).nodup_iff.1 h.nodup
  symbol b hb := h.symbol b (hp.mem_iff.2 hb)
  finite b hb := h.finite b (hp.mem_iff.2 hb)

/-- The names of finite bindings can be runs. -/
lemma isName (h : AreFinite bindings) {b : String × Float} (hb : b ∈ bindings) :
    IsName b.1.toList :=
  isName_of_isSymbol (h.symbol b hb)

/-- No part of a value that is written in is a bound name. -/
lemma valueOf?_literal (h : AreFinite bindings) {v : Float} (hv : v.isFinite) {r : List Char}
    (hr : r ∈ runs (literal v)) : valueOf? bindings r = none := by
  refine List.findSome?_eq_none_iff.2 fun b hb => if_neg ?_
  rintro rfl
  exact symbol_notMem_literal (h.symbol b hb) (.inl hv) hr

/-- Distinct names have one value each, in whatever order they stand. -/
lemma valueOf?_perm (h : AreFinite bindings) (hp : bindings.Perm bindings') (r : List Char) :
    valueOf? bindings r = valueOf? bindings' r := by
  have hiff : ∀ {l : List (String × Float)}, AreFinite l → ∀ x,
      valueOf? l r = some x ↔ ∃ b ∈ l, r = b.1.toList ∧ literal b.2 = x := by
    intro l hl x
    induction l with
    | nil => simp [valueOf?]
    | cons b l ih =>
      rw [valueOf?_cons]
      by_cases hr : r = b.1.toList
      · have hne : ∀ c ∈ l, r ≠ c.1.toList := by
          rintro c hc rfl
          exact (List.nodup_cons.1 hl.nodup).1
            (List.mem_map.2 ⟨c, hc, String.toList_inj.1 hr⟩)
        simp only [hr, if_true, Option.some_or, Option.some.injEq, List.mem_cons]
        constructor
        · rintro rfl
          exact ⟨b, .inl rfl, rfl, rfl⟩
        · rintro ⟨c, rfl | hc, hcr, hx⟩
          · exact hx
          · exact absurd (hr.trans hcr) (hne c hc)
      · simp [hr, ih hl.tail]
  exact Option.ext fun x => by simp only [hiff h, hiff (h.perm hp), hp.mem_iff]

end AreFinite

/-- The names of all bindings replace whole runs, each of them its own. -/
lemma runwise_anyOccurrence (hnames : ∀ b ∈ bindings, IsName b.1.toList) :
    Runwise (anyOccurrence bindings) (valueOf? bindings) := by
  induction bindings with
  | nil => exact ⟨fun _ => rfl, fun _ _ _ _ => rfl, fun _ => rfl, fun _ => ⟨rfl, rfl⟩⟩
  | cons b bindings ih =>
    have hb : Runwise (occurrence b.1.toList (literal b.2)) _ := runwise_occurrence (hnames b (by simp))
    have hrest := ih fun c hc => hnames c (by simp [hc])
    have hrule : ∀ before following, anyOccurrence (b :: bindings) before following =
        (occurrence b.1.toList (literal b.2) before following).or
          (anyOccurrence bindings before following) := fun _ _ => findSome?_cons_or
    have hvalue : ∀ r, valueOf? (b :: bindings) r =
        (if r = b.1.toList then some (literal b.2) else none).or (valueOf? bindings r) :=
      fun _ => valueOf?_cons
    constructor
    · intro before
      rw [hrule, hb.nil, hrest.nil]
      rfl
    · intro before r rest hne hr hbefore hafter
      rw [hrule, hvalue, hb.run hne hr hbefore hafter, hrest.run hne hr hbefore hafter,
        Option.map_or]
    · intro before following hbefore
      rw [hrule, hb.inside hbefore, hrest.inside hbefore]
      rfl
    · intro before c rest hc
      obtain ⟨hb, hvalueb⟩ := hb.single hc
      obtain ⟨hrest, hvaluerest⟩ := hrest.single hc
      rw [hrule, hvalue, hb, hvalueb, hrest, hvaluerest]
      exact ⟨rfl, rfl⟩

/-- One pass takes a text run by run. -/
lemma substituteAtOnce_eq (h : AreFinite bindings) :
    substituteAtOnce s bindings = (runs s).flatMap fun r => (valueOf? bindings r).getD r :=
  replaceBy_eq (runwise_anyOccurrence fun _ hb => h.isName hb)

/-- Values that are written in one after the other are the values that are written in at once. -/
lemma foldl_substitute (h : AreFinite bindings) :
    bindings.foldl (fun s b => substitute s b.1 b.2) s = substituteAtOnce s bindings := by
  rw [substituteAtOnce_eq h]
  induction bindings generalizing s with
  | nil =>
    have : ∀ r : List Char, (valueOf? [] r).getD r = id r := fun _ => rfl
    simp [this]
  | cons b bindings ih =>
    -- The later names find the value of the first one as it is, and every other run as before.
    have hliteral : (runs (literal b.2)).flatMap (fun r => (valueOf? bindings r).getD r) =
        literal b.2 := by
      rw [List.flatMap_congr (g := id) fun r hr => by
        rw [h.tail.valueOf?_literal (h.finite b (by simp)) hr]; rfl]
      simp
    rw [List.foldl_cons, ih h.tail, runs_substitute (h.isName (by simp)), List.flatMap_assoc]
    refine List.flatMap_congr fun r _ => ?_
    rw [valueOf?_cons]
    by_cases hr : r = b.1.toList
    · simp [hr, hliteral]
    · simp [hr]

/--
Finite values of distinct symbols may be written in one after the other in every order, or at once:
the text that results is the same, and it is the one that `substituteAll` makes.
-/
theorem substitute_every_order (h : AreFinite bindings) (s : List Char) :
    (∀ l : List (String × Float), l.Perm bindings →
      l.foldl (fun s b => substitute s b.1 b.2) s = substituteAtOnce s bindings) ∧
    substituteAll s bindings = substituteAtOnce s bindings := by
  have horder : ∀ l : List (String × Float), l.Perm bindings →
      l.foldl (fun s b => substitute s b.1 b.2) s = substituteAtOnce s bindings := by
    intro l hl
    have hfinite := h.perm hl.symm
    rw [foldl_substitute hfinite, substituteAtOnce_eq hfinite, substituteAtOnce_eq h]
    exact List.flatMap_congr fun r _ => by rw [hfinite.valueOf?_perm hl]
  exact ⟨horder, horder _ (List.mergeSort_perm _ _)⟩

/-- A name, its primed form and one that begins another name, in the reverse of their order. -/
theorem substitute_every_order_primed :
    AreFinite [("f", 2.0), ("f'", -1.5), ("x", 1e-7)] ∧
      [("x", 1e-7), ("f'", -1.5), ("f", 2.0)].foldl (fun s b => substitute s b.1 b.2)
        "f'*f + x1*x - 1e5".toList = "(-1.5)*(2.0) + x1*(1e-07) - 1e5".toList := by
  have h : AreFinite [("f", 2.0), ("f'", -1.5), ("x", 1e-7)] :=
    ⟨by decide, by decide +kernel, by decide +kernel⟩
  refine ⟨h, ((substitute_every_order h _).1 _ (List.reverse_perm [_, _, _])).trans ?_⟩
  decide +kernel

end Formulary.Formula
