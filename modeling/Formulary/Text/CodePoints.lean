/-!
# Sets of code points

A class of characters is written as a list of closed intervals of code points in increasing order,
so that a look-up can stop at the first interval that lies above the character. `mem_iff` says that
on a list in order the early stop loses nothing.
-/

namespace Formulary.Text

/-- A set of code points: closed intervals `(first, last)`, in increasing order. -/
abbrev CodePoints := List (Nat × Nat)

namespace CodePoints

/--
Whether a code point lies in one of the intervals; the scan stops at the first interval above it.
-/
def mem (n : Nat) : CodePoints → Bool
  | [] => false
  | (lo, hi) :: rest => if n < lo then false else n ≤ hi || mem n rest

/-- Each interval is non-empty and ends before the next one begins. -/
def Ordered : CodePoints → Prop
  | [] => True
  | [(lo, hi)] => lo ≤ hi
  | (lo, hi) :: (lo', hi') :: rest => lo ≤ hi ∧ hi < lo' ∧ Ordered ((lo', hi') :: rest)

/-- What follows the first interval is in order too. -/
theorem Ordered.tail {i : Nat × Nat} {s : CodePoints} (h : Ordered (i :: s)) : Ordered s := by
  match s with
  | [] => trivial
  | _ :: _ => exact h.2.2

/-- Every interval of an ordered set begins no earlier than the first one. -/
theorem Ordered.le_of_mem {i : Nat × Nat} {s : CodePoints} (h : Ordered (i :: s)) :
    ∀ j ∈ i :: s, i.1 ≤ j.1 := by
  induction s generalizing i with
  | nil => simp
  | cons k s ih =>
    intro j hj
    rcases List.mem_cons.1 hj with rfl | hj
    · exact Nat.le_refl _
    · have := ih h.tail j hj
      have h1 := h.1
      have h2 := h.2.1
      omega

/-- On an ordered set the early stop loses nothing. -/
theorem mem_iff {n : Nat} {s : CodePoints} (h : Ordered s) :
    mem n s = true ↔ ∃ i ∈ s, i.1 ≤ n ∧ n ≤ i.2 := by
  induction s with
  | nil => simp [mem]
  | cons i s ih =>
    unfold mem
    by_cases hn : n < i.1
    · simp only [hn, if_true, Bool.false_eq_true, false_iff, not_exists, not_and]
      intro j hj hj1
      have := h.le_of_mem j hj
      omega
    · simp only [hn, if_false, Bool.or_eq_true, decide_eq_true_eq, ih h.tail, List.mem_cons]
      constructor
      · rintro (hi | ⟨j, hj, hj'⟩)
        · exact ⟨i, .inl rfl, by omega, hi⟩
        · exact ⟨j, .inr hj, hj'⟩
      · rintro ⟨j, rfl | hj, h1, h2⟩
        · exact .inl h2
        · exact .inr ⟨j, hj, h1, h2⟩

end CodePoints
end Formulary.Text
