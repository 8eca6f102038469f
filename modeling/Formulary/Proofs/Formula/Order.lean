import Formulary.Proofs.Formula.Literal

/-!
# The order in which values are written

Values are written for the longest names first, and for names of one length in the order of the
bindings. That order does not matter (`substituteAll_perm`), because no symbol of the length of a
bound name stands in the value (`Separate`).
-/

namespace Formulary.Formula

open Formulary.Text Formulary.Number

section
variable {α β : Type} {f : β → α → β} {size : α → Nat}

/-- Steps of one size that can be exchanged may be moved to the front. -/
lemma foldl_cons_of_comm {x : α} {l r : List α} {b : β}
    (h : ∀ y ∈ l, ∀ b, f (f b x) y = f (f b y) x) :
    (l ++ x :: r).foldl f b = (x :: (l ++ r)).foldl f b := by
  induction l generalizing b with
  | nil => rfl
  | cons y l ih =>
    simp only [List.cons_append, List.foldl_cons] at ih ⊢
    rw [ih fun z hz => h z (by simp [hz]), h y (by simp)]

/-- Two orders of the same steps by size have the same result if steps of one size commute. -/
lemma foldl_eq_of_perm {l l' : List α} (hp : l.Perm l')
    (hl : l.Pairwise fun x y => size y ≤ size x) (hl' : l'.Pairwise fun x y => size y ≤ size x)
    (hnd : l.Nodup)
    (hcomm : ∀ x ∈ l, ∀ y ∈ l, x ≠ y → size x = size y → ∀ b, f (f b x) y = f (f b y) x) (b : β) :
    l.foldl f b = l'.foldl f b := by
  induction l generalizing l' b with
  | nil => rw [hp.nil_eq]
  | cons x l ih =>
    obtain ⟨p, q, rfl⟩ := List.append_of_mem (hp.subset (List.mem_cons_self ..))
    have hperm : l.Perm (p ++ q) := (List.perm_cons x).1 (hp.trans List.perm_middle)
    have hfront : ∀ y ∈ p, ∀ b, f (f b x) y = f (f b y) x := by
      intro y hy
      have hyl : y ∈ l := hperm.symm.subset (List.mem_append_left _ hy)
      have hle : size y ≤ size x := List.rel_of_pairwise_cons hl hyl
      have hge : size x ≤ size y := (List.pairwise_append.1 hl').2.2 y hy x (List.mem_cons_self ..)
      refine hcomm x (by simp) y (by simp [hyl]) ?_ (Nat.le_antisymm hge hle)
      rintro rfl
      exact (List.nodup_cons.1 hnd).1 hyl
    rw [foldl_cons_of_comm hfront, List.foldl_cons, List.foldl_cons]
    refine ih hperm hl.of_cons ?_ (List.nodup_cons.1 hnd).2
      (fun y hy z hz => hcomm y (by simp [hy]) z (by simp [hz])) _
    rw [List.pairwise_append] at hl' ⊢
    exact ⟨hl'.1, hl'.2.1.of_cons, fun y hy z hz => hl'.2.2 y hy z (by simp [hz])⟩
end

/-- The bindings that the order of substitutions does not matter for. -/
structure Separate (bindings : List (String × Float)) : Prop where
  /-- no name is bound twice -/
  nodup : (bindings.map (·.1)).Nodup
  symbol : ∀ b ∈ bindings, isSymbol b.1.toList
  /-- only names longer than the text of a value that is not finite have such a value -/
  finite : ∀ b ∈ bindings, b.2.isFinite ∨ 3 < b.1.length

/-- A symbol can be the run of a name. -/
lemma isName_of_isSymbol {s : List Char} (h : isSymbol s) : IsName s := by
  cases s with
  | nil => cases h
  | cons c rest =>
    simp only [isSymbol, Bool.and_eq_true, List.all_eq_true] at h
    refine ⟨List.cons_ne_nil c rest, fun d hd => ?_⟩
    obtain rfl | hd := List.mem_cons.1 hd
    · have := h.1
      simp only [isWordStart, Bool.and_eq_true] at this
      simp [adheres, this.1]
    · rw [← List.takeWhile_append_dropWhile (p := isWord) (l := rest), List.mem_append] at hd
      obtain hd | hd := hd
      · simp [adheres, List.mem_takeWhile_imp hd]
      · simp [adheres, h.2 d hd]

/-- Values for names of one length are written in either order. -/
lemma Separate.substitute_comm {bindings : List (String × Float)} (h : Separate bindings)
    {a b : String × Float} (ha : a ∈ bindings) (hb : b ∈ bindings) (hne : a ≠ b)
    (hlen : a.1.length = b.1.length) (s : List Char) :
    substitute (substitute s a.1 a.2) b.1 b.2 = substitute (substitute s b.1 b.2) a.1 a.2 := by
  have hnames : a.1 ≠ b.1 := fun heq => hne (List.inj_on_of_nodup_map h.nodup ha hb heq)
  refine Formula.substitute_comm (isName_of_isSymbol (h.symbol a ha))
    (isName_of_isSymbol (h.symbol b hb)) hnames ?_ ?_
  · refine symbol_notMem_literal (h.symbol b hb) ((h.finite a ha).imp_right fun hl => ?_)
    rwa [String.length_toList, ← hlen]
  · refine symbol_notMem_literal (h.symbol a ha) ((h.finite b hb).imp_right fun hl => ?_)
    rwa [String.length_toList, hlen]

/-- The values that are written into a formula do not depend on the order of the bindings. -/
theorem substituteAll_perm {bindings bindings' : List (String × Float)} (h : Separate bindings)
    (hp : bindings.Perm bindings') (s : List Char) :
    substituteAll s bindings = substituteAll s bindings' := by
  have sorted (l : List (String × Float)) :
      (longestFirst l).Pairwise fun a b => b.1.length ≤ a.1.length := by
    refine (List.pairwise_mergeSort ?_ ?_ l).imp fun hab => of_decide_eq_true hab
    · intro a b c
      simp only [decide_eq_true_eq]
      omega
    · intro a b
      simp only [Bool.or_eq_true, decide_eq_true_eq]
      omega
  have hperm : (longestFirst bindings).Perm (longestFirst bindings') :=
    (List.mergeSort_perm _ _).trans (hp.trans (List.mergeSort_perm _ _).symm)
  refine foldl_eq_of_perm hperm (sorted bindings) (sorted bindings') ?_ ?_ s
  · exact (List.mergeSort_perm _ _).nodup_iff.2 (List.Nodup.of_map _ h.nodup)
  · intro a ha b hb hne hlen s
    exact h.substitute_comm (List.mem_mergeSort.1 ha) (List.mem_mergeSort.1 hb) hne hlen s
end Formulary.Formula
