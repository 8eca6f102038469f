import Formulary.Numeric.Search
import Formulary.Proofs.Expression.Interruption
import Formulary.Proofs.Number.Equality

/-!
# Searches that are watched

The root finders run in any monad. In one that writes down where the function is evaluated they
visit the same points as in one that can fail (`search_follows`), up to the first point at which the
function fails. A slope of zero ends a search only under settings that do not count it as flat
(`search_ne_zeroSlope`).
-/

namespace Formulary.Numeric

open Arithmetic

variable {α β γ δ ε σ : Type}

/-- A function whose arguments are written down, the latest one last. -/
def recorded (f : α → β) (x : α) : StateM (List α) β := fun log => (f x, log ++ [x])

/-- A recorded function has its value, and its argument is written down. -/
@[simp] lemma run_recorded {f : α → β} {x : α} {log : List α} :
    (recorded f x).run log = (f x, log ++ [x]) := rfl

/-- A choice does not depend on what is written down. -/
@[simp] lemma run_ite {c : Prop} [Decidable c] {p q : StateM (List α) β} {log : List α} :
    (if c then p else q).run log = if c then p.run log else q.run log := by
  split <;> rfl

/-- What is written down goes through one step after the other. -/
lemma run_bind {p : StateM (List α) β} {k : β → StateM (List α) γ} {log : List α} :
    (p >>= k).run log = (k (p.run log).1).run (p.run log).2 := rfl

/--
A computation that may fail where `g` does, beside one that writes down its arguments: they answer
the same if `g` has values at all of these, and the first one fails as `g` does at one of them
otherwise.
-/
def Follows (g : α → Except ε β) (p : Except ε γ) (w : StateM (List α) γ) : Prop :=
  ∀ log, ∃ seen, (w.run log).2 = log ++ seen ∧
    ((∀ x ∈ seen, ∃ y, g x = .ok y) ∧ p = .ok (w.run log).1 ∨
      ∃ x ∈ seen, ∃ e, g x = .error e ∧ p = .error e)

namespace Follows

variable {g : α → Except ε β} {f : α → β} {p : Except ε γ} {w : StateM (List α) γ}

/-- A constant follows itself. -/
lemma pure (c : γ) : Follows g (pure c) (pure c) :=
  fun log => ⟨[], (List.append_nil log).symm, .inl ⟨nofun, rfl⟩⟩

/-- Asking for a value. -/
lemma ask (h : ∀ x y, g x = .ok y → f x = y) (x : α) : Follows g (g x) (recorded f x) := by
  intro log
  refine ⟨[x], rfl, ?_⟩
  cases hx : g x with
  | ok y => exact .inl ⟨by simpa using ⟨y, hx⟩, congrArg _ (h x y hx).symm⟩
  | error e => exact .inr ⟨x, by simp, e, hx, rfl⟩

/-- Going on with what was answered. -/
lemma bind {k : γ → Except ε δ} {l : γ → StateM (List α) δ} (h : Follows g p w)
    (hk : ∀ c, Follows g (k c) (l c)) : Follows g (p >>= k) (w >>= l) := by
  intro log
  obtain ⟨seen, hs, hp⟩ := h log
  obtain ⟨more, hm, hp'⟩ := hk (w.run log).1 (w.run log).2
  have hlog : ((w >>= l).run log).2 = log ++ (seen ++ more) := by
    rw [← List.append_assoc, ← hs]
    exact hm
  refine ⟨seen ++ more, hlog, ?_⟩
  obtain ⟨hok, rfl⟩ | ⟨x, hx, e, he, rfl⟩ := hp
  · obtain ⟨hok', hp'⟩ | ⟨x, hx, e, he, hp'⟩ := hp'
    · refine .inl ⟨fun x hx => ?_, hp'⟩
      exact (List.mem_append.1 hx).elim (hok x) (hok' x)
    · exact .inr ⟨x, List.mem_append_right _ hx, e, he, hp'⟩
  · exact .inr ⟨x, List.mem_append_left _ hx, e, he, rfl⟩

end Follows

section
variable [Arithmetic α] {g : α → Except ε α} {f : α → α} {s : Settings α}

/-- A descent follows the one that is watched. -/
lemma descend_follows (h : ∀ x y, g x = .ok y → f x = y) (steps : Nat) (x : α) :
    Follows g (descend s g steps x) (descend s (recorded f) steps x) := by
  induction steps generalizing x with
  | zero => exact .pure _
  | succ steps ih =>
    simp only [descend]
    refine (Follows.ask h x).bind fun fx => ?_
    split
    · exact .pure _
    · split
      · exact .pure _
      · refine (Follows.ask h _).bind fun fxh => ?_
        split
        · exact .pure _
        · split
          · exact .pure _
          · split
            · exact .pure _
            · exact ih _

/-- Halving follows the one that is watched. -/
lemma halve_follows (h : ∀ x y, g x = .ok y → f x = y) (steps : Nat) (a b fa : α) :
    Follows g (halve s g steps a b fa) (halve s (recorded f) steps a b fa) := by
  induction steps generalizing a b fa with
  | zero => exact .pure _
  | succ steps ih =>
    simp only [halve]
    refine (Follows.ask h _).bind fun fc => ?_
    split
    · exact .pure _
    · split
      · exact ih _ _ _
      · exact ih _ _ _

/-- Widening follows the one that is watched. -/
lemma widen_follows (h : ∀ x y, g x = .ok y → f x = y) (i : Bracket α) :
    Follows g (widen s g i) (widen s (recorded f) i) := by
  simp only [widen]
  split
  · exact (Follows.ask h _).bind fun _ => .pure _
  · exact (Follows.ask h _).bind fun _ => .pure _

/-- Bisection follows the one that is watched. -/
lemma bisection_follows (h : ∀ x y, g x = .ok y → f x = y) :
    Follows g (bisection s g) (bisection s (recorded f)) := by
  simp only [bisection]
  refine (Follows.ask h _).bind fun fa => (Follows.ask h _).bind fun fb => ?_
  split
  · exact .pure _
  · split
    · exact .pure _
    · split
      · refine (widen_follows h _).bind fun i => ?_
        split
        · exact .pure _
        · exact (halve_follows h _ _ _ _).bind fun _ => .pure _
      · exact (halve_follows h _ _ _ _).bind fun _ => .pure _

/-- A search from guesses follows the one that is watched. -/
lemma searchFrom_follows (h : ∀ x y, g x = .ok y → f x = y) (guesses : List α) :
    Follows g (searchFrom s g guesses) (searchFrom s (recorded f) guesses) := by
  induction guesses with
  | nil =>
    simp only [searchFrom]
    refine (bisection_follows h).bind fun o => ?_
    cases o with
    | ok o => exact .pure _
    | error e => exact .pure _
  | cons guess guesses ih =>
    simp only [searchFrom]
    refine (descend_follows h _ _).bind fun d => ?_
    cases d with
    | root x =>
      simp only
      split
      · exact .pure _
      · exact ih.bind fun _ => .pure _
    | failed => exact ih.bind fun _ => .pure _
    | zeroSlope => exact .pure _

/-- A search visits the same points whether or not it is watched. -/
lemma search_follows (h : ∀ x y, g x = .ok y → f x = y) :
    Follows g (search s g) (search s (recorded f)) := searchFrom_follows h _

/-- A descent under settings that count a zero as flat does not end at a slope of zero. -/
lemma descend_ne_zeroSlope (flat : ∀ d : α, eq d zero → lt (abs d) s.flatSlope) (steps : Nat)
    (x : α) : descend s g steps x ≠ .ok .zeroSlope := by
  induction steps generalizing x with
  | zero => exact nofun
  | succ steps ih =>
    intro h
    simp only [descend] at h
    obtain ⟨fx, -, h⟩ := bind_eq_ok.1 h
    split at h
    · cases h
    · split at h
      · cases h
      · obtain ⟨fxh, -, h⟩ := bind_eq_ok.1 h
        split at h
        · cases h
        · rename_i hd
          split at h
          · rename_i hz
            exact hd (by simp [flat _ hz])
          · split at h
            · cases h
            · exact ih _ h

/-- There is no best end only where both ends are undefined. -/
lemma bestEnd_error {i : Bracket α} {e : SearchFailure} (h : bestEnd i = .error e) :
    e = .undefinedInterval := by
  unfold bestEnd at h
  split at h
  · cases h
    rfl
  · split at h <;> cases h

/-- Bisection fails only where the function is finite at neither end of the interval. -/
lemma bisection_error {e : SearchFailure} (h : bisection s g = .ok (.error e)) :
    e = .undefinedInterval := by
  simp only [bisection] at h
  obtain ⟨fa, -, h⟩ := bind_eq_ok.1 h
  obtain ⟨fb, -, h⟩ := bind_eq_ok.1 h
  split at h
  · cases h
  · split at h
    · cases h
    · split at h
      · obtain ⟨i, -, h⟩ := bind_eq_ok.1 h
        split at h
        · exact bestEnd_error (Except.ok.inj h)
        · obtain ⟨o, -, h⟩ := bind_eq_ok.1 h
          cases h
      · obtain ⟨o, -, h⟩ := bind_eq_ok.1 h
        cases h

/-- Neither does a search. -/
lemma searchFrom_ne_zeroSlope (flat : ∀ d : α, eq d zero → lt (abs d) s.flatSlope)
    {guesses : List α} {o : Search α} (h : searchFrom s g guesses = .ok o) :
    o.result ≠ .error .zeroSlope := by
  induction guesses generalizing o with
  | nil =>
    simp only [searchFrom] at h
    obtain ⟨b, hb, h⟩ := bind_eq_ok.1 h
    cases b with
    | ok b =>
      cases h
      simp only
      split <;> simp
    | error e =>
      cases bisection_error hb
      cases h
      simp
  | cons guess guesses ih =>
    simp only [searchFrom] at h
    obtain ⟨d, hd, h⟩ := bind_eq_ok.1 h
    cases d with
    | root x =>
      simp only at h
      split at h
      · cases h
        simp
      · obtain ⟨rest, hr, h⟩ := bind_eq_ok.1 h
        cases h
        exact ih (o := rest) hr
    | failed =>
      obtain ⟨rest, hr, h⟩ := bind_eq_ok.1 h
      cases h
      exact ih (o := rest) hr
    | zeroSlope => exact absurd hd (descend_ne_zeroSlope flat _ _)

/-- A search does not divide by a slope of zero if such slopes count as flat. -/
lemma search_ne_zeroSlope (flat : ∀ d : α, eq d zero → lt (abs d) s.flatSlope) {o : Search α}
    (h : search s g = .ok o) : o.result ≠ .error .zeroSlope := searchFrom_ne_zeroSlope flat h

end

/-- A positive bound on flat slopes counts zeros of either sign as flat. -/
lemma flat_of_pos {s : Settings Float} (h : 0.0 < s.flatSlope) (d : Float)
    (hd : eq d (zero : Float)) : lt (abs d) s.flatSlope := by
  have hz : d.abs = 0.0 := Number.abs_of_beq_zero hd
  show decide (d.abs < s.flatSlope) = true
  rw [hz]
  exact decide_eq_true h

end Formulary.Numeric
