import Mathlib
import Formulary.Text.Blank
import Formulary.Text.Word

/-!
# Word characters, blanks and ASCII

Blanks are no word characters (`isWord_of_isBlank`), and the word characters of ASCII are the letters,
the digits and the underscore (`isWord_of_isAlphanum`).
-/

namespace Formulary.Text

/-- The code points of blank characters one by one. -/
lemma blank_cases {n : Nat} (h : blanks.mem n) :
    n ∈ [0x9, 0xA, 0xB, 0xC, 0xD, 0x1C, 0x1D, 0x1E, 0x1F, 0x20, 0x85, 0xA0, 0x1680, 0x2000, 0x2001,
      0x2002, 0x2003, 0x2004, 0x2005, 0x2006, 0x2007, 0x2008, 0x2009, 0x200A, 0x2028, 0x2029,
      0x202F, 0x205F, 0x3000] := by
  rw [CodePoints.mem_iff (by simp [CodePoints.Ordered, blanks])] at h
  obtain ⟨i, hi, h1, h2⟩ := h
  simp only [blanks, List.mem_cons, List.not_mem_nil, or_false] at hi ⊢
  obtain rfl | rfl | rfl | rfl | rfl | rfl | rfl | rfl | rfl | rfl := hi <;> simp only at h1 h2 <;> omega

/-- A blank is no word character. -/
theorem isWord_of_isBlank {c : Char} (h : isBlank c) : isWord c = false := by
  have hall : ∀ n ∈ [0x9, 0xA, 0xB, 0xC, 0xD, 0x1C, 0x1D, 0x1E, 0x1F, 0x20, 0x85, 0xA0, 0x1680,
      0x2000, 0x2001, 0x2002, 0x2003, 0x2004, 0x2005, 0x2006, 0x2007, 0x2008, 0x2009, 0x200A,
      0x2028, 0x2029, 0x202F, 0x205F, 0x3000], words.mem n = false := by
    decide +kernel
  exact hall _ (blank_cases h)

/-- The word characters of ASCII are letters, digits and the underscore. -/
theorem isWord_of_isAlphanum {c : Char} (h : c.isAlphanum ∨ c = '_') : isWord c := by
  have hall : ∀ n < 128, (48 ≤ n ∧ n ≤ 57 ∨ 65 ≤ n ∧ n ≤ 90 ∨ 97 ≤ n ∧ n ≤ 122 ∨ n = 95) →
      words.mem n := by
    decide +kernel
  have hc : 48 ≤ c.toNat ∧ c.toNat ≤ 57 ∨ 65 ≤ c.toNat ∧ c.toNat ≤ 90 ∨
      97 ≤ c.toNat ∧ c.toNat ≤ 122 ∨ c.toNat = 95 := by
    obtain h | rfl := h
    · simp only [Char.isAlphanum, Char.isAlpha, Char.isUpper, Char.isLower, Char.isDigit,
        Bool.or_eq_true, Bool.and_eq_true, decide_eq_true_eq] at h
      obtain (h | h) | h := h
      · exact .inr (.inl h)
      · exact .inr (.inr (.inl h))
      · exact .inl h
    · exact .inr (.inr (.inr rfl))
  exact hall _ (by omega) hc

end Formulary.Text
