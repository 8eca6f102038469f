import Formulary.Numeric.Solve
import Formulary.Proofs.Expression.Interruption

/-!
# How a search came to its outcome

A search that has an outcome tried its starting points in order. Either the descent from one of them
ended at a finite root after those from the points before it had failed, or all of them failed and
the outcome, which is finite as well, is that of bisection (`searchFrom_ok`). The steps that are
recorded say the same (`solve_ok`).
-/

namespace Formulary.Numeric

open Arithmetic

variable {α ε : Type} [Arithmetic α] {f : α → Except ε α} {s : Settings α}

/-- That the descent from a point ends, but not at a finite root. -/
def DescentFails (s : Settings α) (f : α → Except ε α) (guess : α) : Prop :=
  newton s f guess = .ok .failed ∨ ∃ x, newton s f guess = .ok (.root x) ∧ isFinite x = false

/-- Halving an interval is no descent. -/
lemma halve_ne_newton {steps : Nat} {a b fa : α} {o : Outcome α}
    (h : halve s f steps a b fa = .ok o) (g v : α) : o ≠ .newton g v := by
  induction steps generalizing a b fa with
  | zero =>
    cases h
    exact nofun
  | succ steps ih =>
    simp only [halve] at h
    obtain ⟨fc, -, h⟩ := bind_eq_ok.1 h
    split at h
    · cases h
      exact nofun
    · split at h
      · exact ih h
      · exact ih h

/-- The best end is no root of a descent. -/
lemma bestEnd_ne_newton {i : Bracket α} {o : Outcome α} (h : bestEnd i = .ok o) (g v : α) :
    o ≠ .newton g v := by
  simp only [bestEnd] at h
  split at h
  · cases h
  · split at h <;> cases h <;> exact nofun

/-- Bisection is no descent. -/
lemma bisection_ne_newton {o : Outcome α} (h : bisection s f = .ok (.ok o)) (g v : α) :
    o ≠ .newton g v := by
  simp only [bisection] at h
  obtain ⟨fa, -, h⟩ := bind_eq_ok.1 h
  obtain ⟨fb, -, h⟩ := bind_eq_ok.1 h
  have halvings {a b fa : α}
      (h : (do return .ok (← halve s f s.bisectionCap.toNat a b fa) :
        Except ε (Except SearchFailure (Outcome α))) = .ok (.ok o)) : o ≠ .newton g v := by
    obtain ⟨o', ho, h⟩ := bind_eq_ok.1 h
    cases h
    exact halve_ne_newton ho g v
  split at h
  · cases h
    exact nofun
  · split at h
    · cases h
      exact nofun
    · split at h
      · obtain ⟨i, -, h⟩ := bind_eq_ok.1 h
        split at h
        · exact bestEnd_ne_newton (Except.ok.inj h) g v
        · exact halvings h
      · exact halvings h

/-- The starting points that failed come first, and then the one that is answered with, if any. -/
theorem searchFrom_ok {guesses : List α} {r : Search α} {o : Outcome α}
    (h : searchFrom s f guesses = .ok r) (ho : r.result = .ok o) :
    isFinite o.value ∧ (∀ g ∈ r.failedGuesses, DescentFails s f g) ∧
      ((∃ g v rest, o = .newton g v ∧ guesses = r.failedGuesses ++ g :: rest) ∨
        (∀ g v, o ≠ .newton g v) ∧ guesses = r.failedGuesses) := by
  induction guesses generalizing r with
  | nil =>
    simp only [searchFrom] at h
    obtain ⟨b, hb, h⟩ := bind_eq_ok.1 h
    cases b with
    | error e =>
      cases h
      cases ho
    | ok o' =>
      cases h
      dsimp only at ho
      split at ho
      · cases ho
        exact ⟨‹_›, nofun, .inr ⟨bisection_ne_newton hb, rfl⟩⟩
      · cases ho
  | cons guess guesses ih =>
    simp only [searchFrom] at h
    obtain ⟨d, hd, h⟩ := bind_eq_ok.1 h
    -- The descent from the first point failed, so the search went on from the others.
    have further (hfails : DescentFails s f guess)
        (h : (searchFrom s f guesses >>= fun rest => return { rest with
          failedGuesses := guess :: rest.failedGuesses }) = .ok r) :
        isFinite o.value ∧ (∀ g ∈ r.failedGuesses, DescentFails s f g) ∧
          ((∃ g v rest, o = .newton g v ∧ guess :: guesses = r.failedGuesses ++ g :: rest) ∨
            (∀ g v, o ≠ .newton g v) ∧ guess :: guesses = r.failedGuesses) := by
      obtain ⟨r', hr', h⟩ := bind_eq_ok.1 h
      cases h
      obtain ⟨hfin, hfailed, hroot | ⟨hnone, heq⟩⟩ := ih hr' ho
      · obtain ⟨g, v, rest, rfl, heq⟩ := hroot
        exact ⟨hfin, List.forall_mem_cons.2 ⟨hfails, hfailed⟩, .inl ⟨g, v, rest, rfl, by rw [heq]; rfl⟩⟩
      · exact ⟨hfin, List.forall_mem_cons.2 ⟨hfails, hfailed⟩, .inr ⟨hnone, by rw [heq]⟩⟩
    cases d with
    | root x =>
      dsimp only at h
      split at h
      · cases h
        cases ho
        exact ⟨‹_›, nofun, .inl ⟨guess, x, guesses, rfl, rfl⟩⟩
      · exact further (.inr ⟨x, hd, Bool.eq_false_iff.2 ‹_›⟩) h
    | failed => exact further (.inl hd) h
    | zeroSlope =>
      cases h
      cases ho

/--
That the search for a root of a formula has an outcome, after descents from some starting points
failed: from those before the one that is answered with, or else from all.
-/
def Searched (s : Settings Float) (formula : String) (bindings : List (String × Float))
    (unknown : String) (failed : List Float) (o : Outcome Float) : Prop :=
  ∃ r, Residual.build formula bindings unknown = .ok r ∧
    (∀ g ∈ failed, DescentFails s r.valueAt g) ∧
    ((∃ g v rest, o = .newton g v ∧ s.guesses = failed ++ g :: rest) ∨
      (∀ g v, o ≠ .newton g v) ∧ s.guesses = failed)

/-- A formula has an outcome if it has a residual and the search for a root of that has one. -/
lemma solve_result_eq_ok {s : Settings Float} {formula : String} {bindings : List (String × Float)}
    {unknown : String} {o : Outcome Float} :
    (solve s formula bindings unknown).result = .ok o ↔
      ∃ r found, Residual.build formula bindings unknown = .ok r ∧
        search s r.valueAt = .ok found ∧ found.result = .ok o := by
  simp only [solve]
  cases hb : Residual.build formula bindings unknown with
  | error e => simp
  | ok r =>
    cases hs : search s r.valueAt with
    | error i => simp [hs]
    | ok found =>
      cases ho : found.result with
      | ok o' => simp [hs, Search.report, ho]
      | error e => cases e <;> simp [hs, Search.report, ho]

/-- The steps of a search with an outcome are the points that failed, in order, and the outcome. -/
theorem solve_ok {s : Settings Float} {formula : String} {bindings : List (String × Float)}
    {unknown : String} {o : Outcome Float} (h : (solve s formula bindings unknown).result = .ok o) :
    o.value.isFinite ∧ ∃ failed, Searched s formula bindings unknown failed o ∧
      (solve s formula bindings unknown).trace = failed.map .descentFailed ++ [.found o] := by
  obtain ⟨r, found, hb, hs, ho⟩ := solve_result_eq_ok.1 h
  obtain ⟨hfin, hfailed, hend⟩ := searchFrom_ok hs ho
  refine ⟨hfin, found.failedGuesses, ⟨r, hb, hfailed, hend⟩, ?_⟩
  simp only [solve, hb, hs, Search.report, ho]

end Formulary.Numeric
