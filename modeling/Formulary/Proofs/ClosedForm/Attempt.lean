import Mathlib
import Formulary.ClosedForm.Simplification

/-!
# What an attempt reports

Strategies are tried in order, and the first finite value is the answer (`tryStrategies_cases`). An
attempt is made with an algebra, of which nothing is known; its report says whether the formula was
read and which strategy answered (`Algebra.closedForm_cases`).
-/

namespace Formulary

namespace Strategy

/-- That a strategy finds a finite value and the ones before it find none. -/
structure IsFirst (l : List Strategy) (find : Strategy → Option Float) (s : Strategy)
    (v : Float) : Prop where
  found : find s = some v
  finite : v.isFinite
  before : ∃ earlier later, l = earlier ++ s :: later ∧
    ∀ t ∈ earlier, ∀ w, find t = some w → ¬ w.isFinite

/-- That no strategy finds a finite value. -/
def NoneFinite (l : List Strategy) (find : Strategy → Option Float) : Prop :=
  ∀ s ∈ l, ∀ v, find s = some v → ¬ v.isFinite

variable {l : List Strategy} {find : Strategy → Option Float} {s t : Strategy} {v : Float}

/-- A strategy that finds no finite value may be put in front of the others. -/
lemma IsFirst.cons (ht : ∀ w, find t = some w → ¬ w.isFinite) (h : IsFirst l find s v) :
    IsFirst (t :: l) find s v := by
  obtain ⟨earlier, later, rfl, hbefore⟩ := h.before
  exact ⟨h.found, h.finite, t :: earlier, later, rfl, List.forall_mem_cons.2 ⟨ht, hbefore⟩⟩

/-- The strategies in the order in which they are tried. -/
def inOrder : List Strategy := [.linear, .quadratic, .generic]

end Strategy

namespace ClosedForm

/-- Strategies answer with the first finite value, if there is one. -/
theorem tryStrategies_cases {E : Type} (e : E) (find : Strategy → E → Option Float)
    (l : List Strategy) :
    (∃ s v, tryStrategies e (l.map fun s => (s, find s)) = ⟨[.closedForm s v], some v⟩ ∧
      Strategy.IsFirst l (find · e) s v) ∨
    tryStrategies e (l.map fun s => (s, find s)) = ⟨[.noClosedForm .notFound], none⟩ ∧
      Strategy.NoneFinite l (find · e) := by
  induction l with
  | nil => exact .inr ⟨rfl, nofun⟩
  | cons t l ih =>
    simp only [List.map_cons, tryStrategies]
    cases ht : find t e with
    | none =>
      have hnot : ∀ w, find t e = some w → ¬ w.isFinite := by
        rw [ht]
        exact nofun
      obtain ⟨s, v, hr, hfirst⟩ | ⟨hr, hnone⟩ := ih
      · exact .inl ⟨s, v, hr, hfirst.cons hnot⟩
      · exact .inr ⟨hr, List.forall_mem_cons.2 ⟨hnot, hnone⟩⟩
    | some v =>
      dsimp only
      split
      · exact .inl ⟨t, v, rfl, ht, ‹_›, [], l, rfl, nofun⟩
      · rename_i hv
        have hnot : ∀ w, find t e = some w → ¬ w.isFinite := by
          intro w hw
          rwa [← Option.some.inj (ht.symm.trans hw)]
        obtain ⟨s, v, hr, hfirst⟩ | ⟨hr, hnone⟩ := ih
        · exact .inl ⟨s, v, hr, hfirst.cons hnot⟩
        · exact .inr ⟨hr, List.forall_mem_cons.2 ⟨hnot, hnone⟩⟩

end ClosedForm

/--
What reads a formula with values put in for its symbols, and looks for a root of what it has read by
one strategy or another. Nothing is known of what it reads and finds.
-/
structure Algebra where
  Reading : Type
  read : String → List (String × Float) → String → Except NoClosedForm Reading
  find : Strategy → Reading → Option Float

namespace Algebra

variable (a : Algebra) (formula : String) (bindings : List (String × Float)) (unknown : String)

/-- The attempt at a closed form by all strategies. -/
def closedForm : ClosedForm.Report :=
  ClosedForm.attempt (a.read formula bindings unknown) (Strategy.inOrder.map fun s => (s, a.find s))

/-- That a formula has a closed form, by the first strategy that finds one. -/
def Solves (s : Strategy) (v : Float) : Prop :=
  ∃ e, a.read formula bindings unknown = .ok e ∧ Strategy.IsFirst Strategy.inOrder (a.find · e) s v

/-- That a formula has no closed form, with the steps that say so. -/
inductive Skips : Trace → Prop where
  | unread {reason : NoClosedForm} :
    a.read formula bindings unknown = .error reason → Skips [.noClosedForm reason]
  | unsolved {e : a.Reading} :
    a.read formula bindings unknown = .ok e → Strategy.NoneFinite Strategy.inOrder (a.find · e) →
    Skips [.simplified, .noClosedForm .notFound]

/-- An attempt has a value and the steps to it, or no value and the steps that say so. -/
theorem closedForm_cases :
    (∃ s v, a.closedForm formula bindings unknown = ⟨[.simplified, .closedForm s v], some v⟩ ∧
      a.Solves formula bindings unknown s v) ∨
    ∃ skipped, a.closedForm formula bindings unknown = ⟨skipped, none⟩ ∧
      a.Skips formula bindings unknown skipped := by
  simp only [closedForm, ClosedForm.attempt]
  cases hr : a.read formula bindings unknown with
  | error reason => exact .inr ⟨_, rfl, .unread hr⟩
  | ok e =>
    dsimp only
    obtain ⟨s, v, h, hfirst⟩ | ⟨h, hnone⟩ :=
      ClosedForm.tryStrategies_cases e a.find Strategy.inOrder
    · exact .inl ⟨s, v, by rw [h], e, hr, hfirst⟩
    · exact .inr ⟨_, by rw [h], .unsolved hr hnone⟩

end Algebra

/-- What a simplifier reads, with what the strategies find there. -/
def ClosedForm.Simplifier.algebra (S : ClosedForm.Simplifier) : Algebra :=
  ⟨S.Reading, S.read, fun s e => (S.root e s).toOption.bind id⟩

/-- The attempt at a closed form with a simplifier is one with an algebra. -/
lemma ClosedForm.Simplifier.algebra_closedForm (S : ClosedForm.Simplifier) :
    S.algebra.closedForm = S.closedForm := rfl

end Formulary
