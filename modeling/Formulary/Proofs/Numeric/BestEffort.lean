import Formulary.Proofs.Number.Extended
import Formulary.Proofs.Numeric.Watched

/-!
# The best of the ends

Where bisection finds no change of sign, neither on the interval of the settings nor on the one that
it has widened, it answers with the better end of the interval that it has then, and fails only if
the function is finite at neither of them (`bisection_bestEnd`). Widening moves the end at which the
function is smaller, and that end is given up: nothing is better than it if the function is larger
where it has gone (`bisection_forgets`).
-/

namespace Formulary.Numeric

open Arithmetic Number

variable {s : Settings Float} {f : Float → Float} {i : Bracket Float} {x y : Float}
  {log : List Float}

/-- How large a value is; one that is not finite is larger than all others. -/
noncomputable def size (y : Float) : EReal := if y.isFinite then ((|toReal y| : ℝ) : EReal) else ⊤

/-- A finite value is as large as the number that it denotes. -/
lemma size_of_isFinite (hy : y.isFinite) : size y = ((|toReal y| : ℝ) : EReal) := if_pos hy

/-- A value is larger than all others if it is not finite, and only then. -/
@[simp] lemma size_eq_top : size y = ⊤ ↔ ¬ y.isFinite := by
  unfold size
  split <;> simp_all

/-- A finite value has a magnitude. -/
lemma magnitude_of_isFinite (hy : y.isFinite) : magnitude y = some y.abs := if_pos hy

/-- A value that is not finite has no magnitude, and no other. -/
lemma magnitude_eq_none : magnitude y = none ↔ ¬ y.isFinite := by
  show (if y.isFinite then some y.abs else none) = none ↔ _
  split <;> simp_all

/-- Magnitudes are compared as sizes are. -/
lemma lessMagnitude_iff_size :
    lessMagnitude (magnitude x) (magnitude y) = true ↔ size x < size y := by
  by_cases hx : x.isFinite
  · by_cases hy : y.isFinite
    · rw [magnitude_of_isFinite hx, magnitude_of_isFinite hy, size_of_isFinite hx,
        size_of_isFinite hy, EReal.coe_lt_coe_iff, ← (toReal_abs hx).2, ← (toReal_abs hy).2,
        ← lt_iff (toReal_abs hx).1 (toReal_abs hy).1]
      exact decide_eq_true_iff
    · rw [magnitude_of_isFinite hx, magnitude_eq_none.2 hy, size_of_isFinite hx, size_eq_top.2 hy]
      simp [lessMagnitude]
  · rw [magnitude_eq_none.2 hx, size_eq_top.2 hx]
    simp [lessMagnitude]

/-- The better end is the one with the smaller value, if the function is finite at either. -/
lemma bestEnd_cases (i : Bracket Float) :
    (bestEnd i = .error .undefinedInterval ∧ size i.atLower = ⊤ ∧ size i.atUpper = ⊤) ∨
      (bestEnd i = .ok (.bestEffort i.lower) ∧ size i.atLower < size i.atUpper) ∨
      (bestEnd i = .ok (.bestEffort i.upper) ∧ size i.atUpper ≤ size i.atLower ∧
        size i.atUpper ≠ ⊤) := by
  simp only [bestEnd, lessMagnitude_iff_size, Bool.and_eq_true, Option.isNone_iff_eq_none,
    magnitude_eq_none, ← size_eq_top]
  split
  · exact .inl ⟨rfl, ‹_›⟩
  · rename_i hsome
    split
    · exact .inr (.inl ⟨rfl, ‹_›⟩)
    · rename_i hle
      rw [not_lt] at hle
      exact .inr (.inr ⟨rfl, hle, fun htop => hsome ⟨top_le_iff.1 (htop ▸ hle), htop⟩⟩)

/-! ### Widening -/

namespace Settings

/-- Whether it is the lower end that widening moves. -/
def movesLower (s : Settings Float) (f : Float → Float) : Bool :=
  lessMagnitude (magnitude (f s.bracket.1)) (magnitude (f s.bracket.2))

/-- The end that widening keeps. -/
def kept (s : Settings Float) (f : Float → Float) : Float :=
  if s.movesLower f then s.bracket.2 else s.bracket.1

/-- The end that widening gives up. -/
def givenUp (s : Settings Float) (f : Float → Float) : Float :=
  if s.movesLower f then s.bracket.1 else s.bracket.2

/-- Where the end that widening gives up is moved to. -/
def moved (s : Settings Float) (f : Float → Float) : Float :=
  if s.movesLower f then s.bracket.1 - s.expansion else s.bracket.2 + s.expansion

/-- The interval that widening ends with. -/
def widenedEnds (s : Settings Float) (f : Float → Float) : Bracket Float :=
  if s.movesLower f then ⟨s.moved f, s.kept f, f (s.moved f), f (s.kept f)⟩
  else ⟨s.kept f, s.moved f, f (s.kept f), f (s.moved f)⟩

end Settings

/-- Widening gives up the end at which the function is smaller. -/
lemma size_givenUp_le : size (f (s.givenUp f)) ≤ size (f (s.kept f)) := by
  unfold Settings.givenUp Settings.kept
  split
  · rename_i h
    exact (lessMagnitude_iff_size.1 h).le
  · rename_i h
    exact not_lt.1 fun hlt => h (lessMagnitude_iff_size.2 hlt)

/-- Widening asks for one value. -/
lemma run_widen : (widen s (recorded f)
      ⟨s.bracket.1, s.bracket.2, f s.bracket.1, f s.bracket.2⟩).run log =
    (s.widenedEnds f, log ++ [s.moved f]) := by
  have hmoves : lessMagnitude (magnitude (f s.bracket.1)) (magnitude (f s.bracket.2)) =
    s.movesLower f := rfl
  cases hm : s.movesLower f <;>
    simp [widen, Settings.widenedEnds, Settings.moved, Settings.kept, hmoves, hm] <;> rfl

/-- That there is no change of sign, neither before nor after the interval is widened. -/
structure NoSignChange (s : Settings Float) (f : Float → Float) : Prop where
  lower_ne_zero : eq (f s.bracket.1) zero = false
  upper_ne_zero : eq (f s.bracket.2) zero = false
  given : sameSign (f s.bracket.1) (f s.bracket.2)
  widened : sameSign (s.widenedEnds f).atLower (s.widenedEnds f).atUpper

/-- Where there is no change of sign three points are looked at, and the best end is the answer. -/
lemma NoSignChange.run_bisection (h : NoSignChange s f) :
    (bisection s (recorded f)).run log =
      (bestEnd (s.widenedEnds f), log ++ [s.bracket.1, s.bracket.2, s.moved f]) := by
  have hwiden : _ = (s.widenedEnds f, log ++ [s.bracket.1] ++ [s.bracket.2] ++ [s.moved f]) :=
    run_widen
  obtain ⟨hl, hu, hgiven, hwidened⟩ := h
  rcases hb : s.bracket with ⟨a, b⟩
  rw [hb] at hwiden hl hu hgiven
  simp only [bisection, hb, run_bind, run_recorded, run_ite, StateT.run_pure, hl, hu, hgiven,
    hwiden, hwidened]
  simp [pure]

/-- The ends that widening leaves are the one that it keeps and the one that it moves. -/
lemma widenedEnds_cases (s : Settings Float) (f : Float → Float) :
    s.widenedEnds f = ⟨s.moved f, s.kept f, f (s.moved f), f (s.kept f)⟩ ∨
      s.widenedEnds f = ⟨s.kept f, s.moved f, f (s.kept f), f (s.moved f)⟩ := by
  unfold Settings.widenedEnds
  split
  · exact .inl rfl
  · exact .inr rfl

/--
That `v` is the better of the two ends `a` and `b`: one of them, where the function is finite, and
as small as it gets at them.
-/
structure IsBest (f : Float → Float) (a b v : Float) : Prop where
  is_end : v = a ∨ v = b
  defined : size (f v) ≠ ⊤
  size_eq : size (f v) = min (size (f a)) (size (f b))

/-- The best end of the widened interval is the better of the end kept and the end moved. -/
lemma bestEnd_widenedEnds (s : Settings Float) (f : Float → Float) :
    (∃ v, bestEnd (s.widenedEnds f) = .ok (.bestEffort v) ∧ IsBest f (s.kept f) (s.moved f) v) ∨
      bestEnd (s.widenedEnds f) = .error .undefinedInterval ∧ size (f (s.kept f)) = ⊤ ∧
        size (f (s.moved f)) = ⊤ := by
  have hends := bestEnd_cases (s.widenedEnds f)
  obtain h | h := widenedEnds_cases s f
  · rw [h] at hends ⊢
    obtain ⟨he, hm, hk⟩ | ⟨hv, hlt⟩ | ⟨hv, hle, hfin⟩ := hends
    · exact .inr ⟨he, hk, hm⟩
    · exact .inl ⟨_, hv, .inr rfl, hlt.ne_top, (min_eq_right hlt.le).symm⟩
    · exact .inl ⟨_, hv, .inl rfl, hfin, (min_eq_left hle).symm⟩
  · rw [h] at hends ⊢
    obtain ⟨he, hk, hm⟩ | ⟨hv, hlt⟩ | ⟨hv, hle, hfin⟩ := hends
    · exact .inr ⟨he, hk, hm⟩
    · exact .inl ⟨_, hv, .inl rfl, hlt.ne_top, (min_eq_left hlt.le).symm⟩
    · exact .inl ⟨_, hv, .inr rfl, hfin, (min_eq_right hle).symm⟩

/--
Where there is no change of sign, the function is evaluated at the ends of the interval and at the
point to which one of them is moved; the end that is given up for it is no worse than the other. The
answer is the better end of the interval then, and it is no worse than the end given up if and only
if one of the two ends is. The search fails only if the function is finite at neither of them.
-/
theorem bisection_bestEnd (h : NoSignChange s f) :
    let run := (bisection s (recorded f)).run []
    run.2 = [s.bracket.1, s.bracket.2, s.moved f] ∧
      size (f (s.givenUp f)) ≤ size (f (s.kept f)) ∧
      ((∃ v, run.1 = .ok (.bestEffort v) ∧ (v = s.kept f ∨ v = s.moved f) ∧ (f v).isFinite ∧
          size (f v) ≤ size (f (s.kept f)) ∧ size (f v) ≤ size (f (s.moved f)) ∧
          (size (f v) ≤ size (f (s.givenUp f)) ↔
            size (f (s.kept f)) ≤ size (f (s.givenUp f)) ∨
              size (f (s.moved f)) ≤ size (f (s.givenUp f)))) ∨
        run.1 = .error .undefinedInterval ∧ ¬ (f (s.kept f)).isFinite ∧
          ¬ (f (s.moved f)).isFinite) := by
  rw [h.run_bisection]
  refine ⟨rfl, size_givenUp_le, ?_⟩
  obtain ⟨v, hv, hbest⟩ | ⟨he, hk, hm⟩ := bestEnd_widenedEnds s f
  · refine .inl ⟨v, hv, hbest.is_end, not_not.1 (mt size_eq_top.2 hbest.defined), ?_⟩
    rw [hbest.size_eq]
    exact ⟨min_le_left _ _, min_le_right _ _, min_le_iff⟩
  · exact .inr ⟨he, size_eq_top.1 hk, size_eq_top.1 hm⟩

/-- A parabola above the axis, the least at -50. -/
def parabola (x : Float) : Float := (x + 50) * (x + 50) + 1

/-- A half circle around -100; elsewhere it is undefined. -/
def halfCircle (x : Float) : Float := Float.sqrt (1 - (x + 100) * (x + 100))

/-- The parabola has no change of sign. -/
lemma noSignChange_parabola : NoSignChange .standard parabola :=
  ⟨by decide +kernel, by decide +kernel, by decide +kernel, by decide +kernel⟩

/-- The half circle has no change of sign. -/
lemma noSignChange_halfCircle : NoSignChange .standard halfCircle :=
  ⟨by decide +kernel, by decide +kernel, by decide +kernel, by decide +kernel⟩

/-- The best end of the parabola is better than -1000, to which one of them was moved. -/
theorem bisection_bestEnd_parabola :
    ∃ v, ((bisection .standard (recorded parabola)).run []).1 = .ok (.bestEffort v) ∧
      (v = 100 ∨ v = -1000) ∧ size (parabola v) ≤ size (parabola (-1000)) := by
  have hkept : Settings.standard.kept parabola = 100 := by decide +kernel
  have hmoved : Settings.standard.moved parabola = -1000 := by decide +kernel
  obtain ⟨-, -, ⟨v, hv, hend, -, -, hle, -⟩ | ⟨-, hkept, -⟩⟩ := bisection_bestEnd noSignChange_parabola
  · exact ⟨v, hv, by rwa [hkept, hmoved] at hend, by rwa [hmoved] at hle⟩
  · exact absurd (by decide +kernel) hkept

/--
Widening can make the answer worse, and it can give up the only point where the function is defined.
The parabola is smaller at -100 than at 100, so the end at -100 is moved to -1000, where it is
larger than at both; the half circle is defined at -100 only.
-/
theorem bisection_forgets :
    (NoSignChange .standard parabola ∧
      (bisection .standard (recorded parabola)).run [] =
        (.ok (.bestEffort 100), [-100, 100, -1000]) ∧
      (parabola (-100)).abs < (parabola 100).abs) ∧
    NoSignChange .standard halfCircle ∧
      (bisection .standard (recorded halfCircle)).run [] =
        (.error .undefinedInterval, [-100, 100, -1000]) ∧
      halfCircle (-100) = 1 :=
  ⟨⟨noSignChange_parabola, Prod.ext (by decide +kernel) (by decide +kernel), by decide +kernel⟩,
    noSignChange_halfCircle, Prod.ext (by decide +kernel) (by decide +kernel), by decide +kernel⟩

end Formulary.Numeric
