import Mathlib

/-!
# Sequences of steps that may fail

What it says of the steps that a sequence of them succeeds (`bind_eq_ok`, `mapM_eq_ok`) or fails
(`bind_eq_error`, `bind_bind_error`).
-/

namespace Formulary

variable {ε α β : Type}

/-- A sequence of two steps fails in the first one or in the second one. -/
lemma bind_eq_error {x : Except ε α} {k : α → Except ε β} {e : ε} :
    x >>= k = .error e ↔ x = .error e ∨ ∃ a, x = .ok a ∧ k a = .error e := by
  cases x <;> simp [bind, Except.bind]

/-- A sequence of two steps succeeds if both do. -/
lemma bind_eq_ok {x : Except ε α} {k : α → Except ε β} {b : β} :
    x >>= k = .ok b ↔ ∃ a, x = .ok a ∧ k a = .ok b := by
  cases x <;> simp [bind, Except.bind]

/-- A sequence of steps fails if its second step does, or else if what follows does on its result. -/
lemma bind_bind_error {γ : Type} {x : Except ε α} {y : Except ε β} {k : α → β → Except ε γ}
    (h : (∃ e, y = .error e) ∨ ∃ b, y = .ok b ∧ ∀ a, ∃ e, k a b = .error e) :
    ∃ e, (x >>= fun a => y >>= fun b => k a b) = .error e := by
  cases x with
  | error e => exact ⟨e, rfl⟩
  | ok a =>
    obtain ⟨e, rfl⟩ | ⟨b, rfl, hk⟩ := h
    · exact ⟨e, rfl⟩
    · exact hk a

/-- A result has a value exactly if it is that value. -/
lemma toOption_eq_some {x : Except ε α} {a : α} : x.toOption = some a ↔ x = .ok a := by
  cases x <;> simp [Except.toOption]

/-- A step for every element of a list succeeds if each of them does. -/
lemma mapM_eq_ok {f : α → Except ε β} {as : List α} {bs : List β} :
    as.mapM f = .ok bs ↔ List.Forall₂ (fun a b => f a = .ok b) as bs := by
  induction as generalizing bs with
  | nil => cases bs <;> simp [pure, Except.pure]
  | cons a as ih =>
    rw [List.mapM_cons, bind_eq_ok]
    constructor
    · rintro ⟨b, hb, h⟩
      obtain ⟨bs, hbs, h⟩ := bind_eq_ok.1 h
      cases h
      exact .cons hb (ih.1 hbs)
    · rintro (_ | ⟨hb, hbs⟩)
      exact ⟨_, hb, bind_eq_ok.2 ⟨_, ih.2 hbs, rfl⟩⟩

end Formulary
