import Formulary.Proofs.Number.Extended
import Formulary.Proofs.Numeric.Watched

/-!
# What a descent has found

A descent goes from a point to where the tangent meets zero (`follow`). Each of its steps asks for
at most two values, divides by no zero, and either ends or goes on to the next point
(`run_descend_succ`). So a root that it answers with is one of the points that it has come to, where
the function is small, or is a short step away from one (`newton_justified`).
-/

namespace Formulary.Numeric

open Arithmetic Number

section
variable {α : Type} [Arithmetic α]

/-- The slope of a function at a point, as the forward difference gives it. -/
def forwardSlope (f : α → α) (x : α) : α :=
  slope (differenceStep x) (f x) (f (add x (differenceStep x)))

/-- The point at which the tangent meets zero. -/
def follow (f : α → α) (x : α) : α := sub x (div (f x) (forwardSlope f x))

/-- One step of a descent whose evaluations are written down. -/
lemma run_descend_succ {s : Settings α} {f : α → α} {steps : ℕ} {x : α} {log : List α} :
    (descend s (recorded f) (steps + 1) x).run log =
      let seen := log ++ [x]
      if !isFinite (f x) then (.failed, seen)
      else if lt (abs (f x)) s.tolerance then (.root x, seen)
      else
        let seen := seen ++ [add x (differenceStep x)]
        if !isFinite (forwardSlope f x) || lt (abs (forwardSlope f x)) s.flatSlope then
          (.failed, seen)
        else if eq (forwardSlope f x) zero then (.zeroSlope, seen)
        else if lt (abs (sub (follow f x) x)) s.tolerance then (.root (follow f x), seen)
        else (descend s (recorded f) steps (follow f x)).run seen := by
  simp only [descend, StateT.run_bind, run_recorded, run_ite, StateT.run_pure]
  rfl

end

variable {s : Settings Float} {f : Float → Float} {steps : ℕ} {x r d : Float} {log : List Float}

/-- The step of the forward difference is positive, so that slopes are no division by zero. -/
lemma differenceStep_pos (x : Float) : 0.0 < differenceStep x := by
  have hleast : (0.0 : Float) < floatOfRat (1 / 100000000) := by decide +kernel
  simp only [differenceStep]
  split
  · rename_i h
    exact double_lt_trans hleast (of_decide_eq_true h)
  · exact hleast

/-- A slope that does not end a descent as flat is at least as steep as the settings ask for. -/
lemma steep_of_not_flat (hflat : 0.0 < s.flatSlope)
    (h : ¬ (!isFinite d || lt (abs d) s.flatSlope) = true) : s.flatSlope ≤ d.abs := by
  rw [Bool.or_eq_true, not_or] at h
  have hfinite : isFinite d = true := by simpa using h.1
  have hnot : ¬ d.abs < s.flatSlope := fun hlt => h.2 (decide_eq_true hlt)
  have hnan : ¬ d.abs.isNaN := not_isNaN_of_isFinite (toReal_abs hfinite).1
  exact double_le_of_not_lt hnan (not_isNaN_of_gt hflat) hnot

/-- That a descent goes on from a point: the function is finite there, and steep enough. -/
structure GoesOn (s : Settings Float) (f : Float → Float) (x : Float) : Prop where
  defined : (f x).isFinite
  steep : s.flatSlope ≤ (forwardSlope f x).abs

/--
That a descent may answer with `r` at a point `x`: `r` is the point itself, where the function is
small, or the end of a short step that is not too flat.
-/
structure Justifies (s : Settings Float) (f : Float → Float) (x r : Float) : Prop where
  defined : (f x).isFinite
  near : r = x ∧ (f x).abs < s.tolerance ∨
    r = x - f x / forwardSlope f x ∧ s.flatSlope ≤ (forwardSlope f x).abs ∧
      (r - x).abs < s.tolerance

/--
What can be said of a descent that began at `x` with some steps left and some evaluations made: how
it has ended, and how many evaluations there are now.
-/
structure Sound (s : Settings Float) (f : Float → Float) (steps : ℕ) (x : Float) (made : ℕ)
    (run : Descent Float × List Float) : Prop where
  evaluations : run.2.length ≤ made + 2 * steps
  no_zeroSlope : run.1 ≠ .zeroSlope
  root : ∀ r, run.1 = .root r → ∃ k < steps,
    (∀ j < k, GoesOn s f ((follow f)^[j] x)) ∧ Justifies s f ((follow f)^[k] x) r

/-- A step that goes on adds its point to those of the rest of the descent. -/
lemma Sound.step {run : Descent Float × List Float} {made : ℕ} (hx : GoesOn s f x)
    (h : Sound s f steps (follow f x) (made + 2) run) : Sound s f (steps + 1) x made run where
  evaluations := by have := h.evaluations; omega
  no_zeroSlope := h.no_zeroSlope
  root r hr := by
    obtain ⟨k, hk, hgoes, hends⟩ := h.root r hr
    refine ⟨k + 1, Nat.succ_lt_succ hk, fun j hj => ?_, hends⟩
    cases j with
    | zero => exact hx
    | succ j => exact hgoes j (Nat.lt_of_succ_lt_succ hj)

/-- A descent that ends at its first point. -/
lemma Sound.last {run : Descent Float × List Float} {made : ℕ}
    (hcount : run.2.length ≤ made + 2) (hzero : run.1 ≠ .zeroSlope)
    (hroot : ∀ r, run.1 = .root r → Justifies s f x r) : Sound s f (steps + 1) x made run where
  evaluations := by omega
  no_zeroSlope := hzero
  root r hr := ⟨0, Nat.succ_pos _, nofun, hroot r hr⟩

/-- Every descent is sound if slopes of zero count as flat. -/
lemma descend_sound (hflat : 0.0 < s.flatSlope) :
    Sound s f steps x log.length ((descend s (recorded f) steps x).run log) := by
  -- The step lemma splits the run at its exits; the two that answer with a root justify it.
  induction steps generalizing x log with
  | zero => exact ⟨Nat.le_refl _, nofun, nofun⟩
  | succ steps ih =>
    rw [run_descend_succ]
    dsimp only
    split
    · exact .last (by simp) nofun nofun
    · rename_i hfinite
      have hdefined : isFinite (f x) = true := by simpa using hfinite
      split
      · rename_i hsmall
        refine .last (by simp) nofun fun r hr => ?_
        cases hr
        exact ⟨hdefined, .inl ⟨rfl, of_decide_eq_true hsmall⟩⟩
      · split
        · exact .last (by simp) nofun nofun
        · rename_i hd
          have hsteep := steep_of_not_flat hflat hd
          split
          · rename_i hzero
            exact absurd (by rw [flat_of_pos hflat _ hzero, Bool.or_true]) hd
          · split
            · rename_i hshort
              refine .last (by simp) nofun fun r hr => ?_
              cases hr
              exact ⟨hdefined, .inr ⟨rfl, hsteep, of_decide_eq_true hshort⟩⟩
            · refine .step ⟨hdefined, hsteep⟩ ?_
              simpa using @ih (follow f x) (log ++ [x] ++ [add x (differenceStep x)])

/--
A descent under settings that count zero as flat divides by no zero and evaluates the function at
most twice a step. A root that it answers with comes from a point that it reaches in fewer steps
than are allowed, along points at which the function is finite and not flat.
-/
theorem newton_justified (f : Float → Float) (start : Float) (hflat : 0.0 < s.flatSlope) :
    let run := (newton s (recorded f) start).run []
    (∀ x, 0.0 < differenceStep x) ∧ run.1 ≠ .zeroSlope ∧
      run.2.length ≤ 2 * s.newtonCap.toNat ∧
      ∀ r, run.1 = .root r → ∃ k < s.newtonCap.toNat,
        (∀ j ≤ k, (f ((follow f)^[j] start)).isFinite) ∧
        (∀ j < k, s.flatSlope ≤ (forwardSlope f ((follow f)^[j] start)).abs) ∧
        Justifies s f ((follow f)^[k] start) r := by
  have h : Sound s f s.newtonCap.toNat start ([] : List Float).length
      ((newton s (recorded f) start).run []) := descend_sound hflat
  refine ⟨differenceStep_pos, h.no_zeroSlope, by simpa using h.evaluations, fun r hr => ?_⟩
  obtain ⟨k, hk, hgoes, hends⟩ := h.root r hr
  refine ⟨k, hk, fun j hj => ?_, fun j hj => (hgoes j hj).steep, hends⟩
  obtain hlt | rfl := hj.lt_or_eq
  · exact (hgoes j hlt).defined
  · exact hends.defined

/-- From 1, the descent for the square root of 2 ends at a justified point. -/
theorem newton_justified_sqrt :
    let f : Float → Float := fun x => x * x - 2
    ∃ r, ((newton .standard (recorded f) 1).run []).1 = .root r ∧
      ∃ k < 50, Justifies .standard f ((follow f)^[k] 1) r := by
  intro f
  obtain ⟨-, hzero, -, hroot⟩ :=
    newton_justified (s := .standard) f 1 (by decide +kernel)
  cases hd : ((newton .standard (recorded f) 1).run []).1 with
  | root r =>
    obtain ⟨k, hk, -, -, hends⟩ := hroot r hd
    exact ⟨r, rfl, k, hk, hends⟩
  | failed => exact absurd hd (by decide +kernel)
  | zeroSlope => exact absurd hd hzero

end Formulary.Numeric
