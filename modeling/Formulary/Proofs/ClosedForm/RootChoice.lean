import Formulary.ClosedForm.RootChoice
import Formulary.Proofs.Numeric.Arithmetic

/-!
# Which root is chosen

Both rules choose among the roots that they are given. Without rounding there is one root that they
are after (`IsPreferred`): the least one that is not negative, or the greatest one if all are
negative. It is the same for all lists of the same roots (`IsPreferred.unique`). One rule finds it
in every list (`leastNonNegative_preferred`), the other one in a list of two
(`onlyNonNegative_preferred`).
-/

namespace Formulary.ClosedForm

open Arithmetic

section
variable {α : Type} [Arithmetic α] {key : α → α} {l : List α} {r : α}

/-- What is chosen by the least key stands in the list. -/
lemma firstLeast_mem (h : firstLeast key l = some r) : r ∈ l := by
  cases l with
  | nil => cases h
  | cons a l =>
    cases h
    induction l generalizing a with
    | nil => exact List.mem_singleton_self a
    | cons b l ih =>
      rw [List.foldl_cons]
      split
      · exact List.mem_cons_of_mem a (ih b)
      · obtain h | h := List.mem_cons.1 (ih a)
        · exact List.mem_cons.2 (.inl h)
        · exact List.mem_cons_of_mem a (List.mem_cons_of_mem b h)

/-- What is chosen by its sign stands in the list. -/
lemma onlyNonNegative_mem (h : onlyNonNegative l = some r) : r ∈ l := by
  unfold onlyNonNegative at h
  split at h
  · rename_i s hs
    cases h
    have hmem : r ∈ nonNegative l := by rw [hs]; exact List.mem_singleton_self r
    exact (List.mem_filter.1 hmem).1
  · exact firstLeast_mem h

/-- A list that is not empty has a first least element. -/
lemma exists_firstLeast (key : α → α) (hl : l ≠ []) : ∃ r, firstLeast key l = some r := by
  cases l with
  | nil => exact absurd rfl hl
  | cons a l => exact ⟨_, rfl⟩

end

variable {α : Type} [Field α] [LinearOrder α] {l l' : List α} {p q r r' : α}

/--
That a root is the one to choose: the least of those that are not negative, or the greatest one if
there are none.
-/
structure IsPreferred (roots : List α) (r : α) : Prop where
  mem : r ∈ roots
  least : ∀ x ∈ roots, 0 ≤ x → 0 ≤ r ∧ r ≤ x
  greatest : r < 0 → ∀ x ∈ roots, x ≤ r

/-- The preferred root depends on nothing but which roots there are. -/
lemma IsPreferred.unique (h : IsPreferred l r) (h' : IsPreferred l' r')
    (hmem : ∀ x, x ∈ l ↔ x ∈ l') : r = r' := by
  have hr := (hmem r).1 h.mem
  have hr' := (hmem r').2 h'.mem
  by_cases h0 : 0 ≤ r
  · obtain ⟨h0', hle⟩ := h'.least r hr h0
    exact le_antisymm (h.least r' hr' h0').2 hle
  · have h0' : r' < 0 := by
      by_contra hnot
      exact h0 (h.least r' hr' (not_lt.1 hnot)).1
    exact le_antisymm (h'.greatest h0' r hr) (h.greatest (not_le.1 h0) r' hr')

section
variable [Arithmetic α] [ExactArithmetic α] {key : α → α}

/-- The numbers that are not negative are kept. -/
lemma mem_nonNegative {x : α} : x ∈ nonNegative l ↔ x ∈ l ∧ 0 ≤ x := by simp [nonNegative]

/-- No element has a lesser key than the first least one. -/
lemma firstLeast_le (h : firstLeast key l = some r) : ∀ x ∈ l, key r ≤ key x := by
  cases l with
  | nil => cases h
  | cons a l =>
    cases h
    -- What the fold has found so far is not greater than what it started from.
    suffices h : ∀ a, key (l.foldl (fun best r => if lt (key r) (key best) then r else best) a) ≤
        key a ∧ ∀ x ∈ l,
          key (l.foldl (fun best r => if lt (key r) (key best) then r else best) a) ≤ key x by
      exact List.forall_mem_cons.2 (h a)
    induction l with
    | nil => exact fun a => ⟨le_rfl, nofun⟩
    | cons b l ih =>
      intro a
      rw [List.foldl_cons, List.forall_mem_cons]
      split
      · rename_i hlt
        obtain ⟨hb, hl⟩ := ih b
        exact ⟨hb.trans ((ExactArithmetic.lt_iff _ _).1 hlt).le, hb, hl⟩
      · rename_i hnot
        obtain ⟨ha, hl⟩ := ih a
        rw [ExactArithmetic.lt_iff, not_lt] at hnot
        exact ⟨ha, ha.trans hnot, hl⟩

end

variable [IsStrictOrderedRing α]

namespace IsPreferred

/-- Among roots of one sign the preferred one is nearest to zero. -/
lemma abs_le (h : IsPreferred l r) (hsign : (∀ x ∈ l, x < 0) ∨ ∀ x ∈ l, 0 ≤ x) :
    ∀ x ∈ l, |r| ≤ |x| := by
  intro x hx
  obtain hneg | hpos := hsign
  · rw [abs_of_neg (hneg r h.mem), abs_of_neg (hneg x hx)]
    exact neg_le_neg (h.greatest (hneg r h.mem) x hx)
  · rw [abs_of_nonneg (hpos r h.mem), abs_of_nonneg (hpos x hx)]
    exact (h.least x hx (hpos x hx)).2

/-- Among roots of one sign the one nearest to zero is preferred. -/
lemma of_abs_le (hmem : r ∈ l) (hsign : (∀ x ∈ l, x < 0) ∨ ∀ x ∈ l, 0 ≤ x)
    (hle : ∀ x ∈ l, |r| ≤ |x|) : IsPreferred l r := by
  obtain hneg | hpos := hsign
  · refine ⟨hmem, fun x hx h0 => absurd h0 (not_le.2 (hneg x hx)), fun _ x hx => ?_⟩
    have := hle x hx
    rwa [abs_of_neg (hneg r hmem), abs_of_neg (hneg x hx), neg_le_neg_iff] at this
  · refine ⟨hmem, fun x hx h0 => ⟨hpos r hmem, ?_⟩, fun h0 => absurd (hpos r hmem) (not_le.2 h0)⟩
    have := hle x hx
    rwa [abs_of_nonneg (hpos r hmem), abs_of_nonneg h0] at this

end IsPreferred

variable [Arithmetic α] [ExactArithmetic α]

/-- The least magnitude is that of the preferred root if all roots have one sign. -/
lemma firstLeast_abs_preferred (hl : l ≠ []) (hsign : (∀ x ∈ l, x < 0) ∨ ∀ x ∈ l, 0 ≤ x) :
    ∃ r, firstLeast Arithmetic.abs l = some r ∧ IsPreferred l r := by
  obtain ⟨r, hr⟩ := exists_firstLeast Arithmetic.abs hl
  refine ⟨r, hr, .of_abs_le (firstLeast_mem hr) hsign fun x hx => ?_⟩
  simpa using firstLeast_le hr x hx

/-- In every list the least root that is not negative is found, or the one nearest to zero. -/
theorem leastNonNegative_preferred (hl : l ≠ []) :
    ∃ r, leastNonNegative l = some r ∧ IsPreferred l r := by
  unfold leastNonNegative
  split
  · rename_i hnone
    refine firstLeast_abs_preferred hl (.inl fun x hx => ?_)
    by_contra hnot
    have hmem : x ∈ nonNegative l := mem_nonNegative.2 ⟨hx, not_lt.1 hnot⟩
    rw [hnone] at hmem
    cases hmem
  · rename_i hsome
    obtain ⟨r, hr⟩ := exists_firstLeast (fun r => r) hsome
    obtain ⟨hmem, h0⟩ := mem_nonNegative.1 (firstLeast_mem hr)
    refine ⟨r, hr, hmem, fun x hx h0' => ⟨h0, ?_⟩, fun hneg => absurd h0 (not_le.2 hneg)⟩
    exact firstLeast_le hr x (mem_nonNegative.2 ⟨hx, h0'⟩)

/-- Of two roots the same one is found. -/
theorem onlyNonNegative_preferred (p q : α) :
    ∃ r, onlyNonNegative [p, q] = some r ∧ IsPreferred [p, q] r := by
  by_cases hp : 0 ≤ p <;> by_cases hq : 0 ≤ q
  · -- neither is negative: the lesser one is nearer to zero
    have hboth : nonNegative [p, q] = [p, q] := by simp [nonNegative, hp, hq]
    simp only [onlyNonNegative, hboth]
    exact firstLeast_abs_preferred (by simp) (.inr (by simp [hp, hq]))
  · have honly : nonNegative [p, q] = [p] := by simp [nonNegative, hp, hq]
    simp only [onlyNonNegative, honly]
    refine ⟨p, rfl, by simp, ?_, fun hneg => absurd hp (not_le.2 hneg)⟩
    simp [hp, hq]
  · have honly : nonNegative [p, q] = [q] := by simp [nonNegative, hp, hq]
    simp only [onlyNonNegative, honly]
    refine ⟨q, rfl, by simp, ?_, fun hneg => absurd hq (not_le.2 hneg)⟩
    simp [hp, hq]
  · have hnone : nonNegative [p, q] = [] := by simp [nonNegative, hp, hq]
    simp only [onlyNonNegative, hnone]
    refine firstLeast_abs_preferred (by simp) (.inl ?_)
    simpa using ⟨not_le.1 hp, not_le.1 hq⟩

end Formulary.ClosedForm
