import Formulary.Proofs.Calculator.Accounting
import Formulary.Proofs.ClosedForm.Attempt
import Formulary.Proofs.Numeric.Outcome

/-!
# What a trace says of an answer

After the steps that repeat the question, the trace of an answer ends in one of three ways: with a
value from the cache, with a closed form, or with the outcome of a numeric search (`Explained`).
Whatever a calculator was asked before, and whatever its algebra finds, the trace of an answer tells
which of them it was, and its last step has the value that was answered (`solve_explained`).
-/

namespace Formulary

open Formulary.Numeric

/-- The value that a step records, if it ends a trace. -/
def Step.value? : Step → Option Float
  | .cacheHit v => some v
  | .closedForm _ v => some v
  | .found o => some o.value
  | _ => none

/-- A calculator with an algebra. -/
def Algebra.calculator (a : Algebra) (catalog : Catalog) (settings : Settings Float) : Calculator :=
  ⟨catalog, settings, a.closedForm⟩

/-- How the steps after the question explain an answer. -/
inductive Explained (a : Algebra) (settings : Settings Float) (q : Question) :
    Trace → Solution → Prop where
  | fromCache {v : Float} {converged : Bool} {trace : Trace} :
    Explained a settings q [.cacheHit v] ⟨v, .direct, converged, true, trace⟩
  | inClosedForm {s : Strategy} {v : Float} {trace : Trace} :
    a.Solves q.canonical q.bindings q.unknown s v →
    Explained a settings q [.simplified, .closedForm s v] ⟨v, .direct, true, false, trace⟩
  | searched {skipped : Trace} {failed : List Float} {o : Outcome Float} {converged : Bool}
      {trace : Trace} :
    a.Skips q.canonical q.bindings q.unknown skipped →
    Searched settings q.canonical q.bindings q.unknown failed o →
    (converged = false ↔ ∃ v, o = .bestEffort v) →
    Explained a settings q (skipped ++ (failed.map .descentFailed ++ [.found o]))
      ⟨o.value, .numeric, converged, false, trace⟩

/-- The last step has the value that was answered. -/
lemma Explained.last {a : Algebra} {settings : Settings Float} {q : Question} {steps : Trace}
    {s : Solution} (h : Explained a settings q steps s) :
    steps.getLast?.bind Step.value? = some s.value := by
  cases h with
  | fromCache => rfl
  | inClosedForm _ => rfl
  | searched _ _ _ => simp [Step.value?]

namespace Calculator

variable {a : Algebra} {catalog : Catalog} {settings : Settings Float} {cache : Cache}

/--
The caches that a calculator comes to from an empty one, with a catalog and settings that stay and
an algebra that may answer differently every time.
-/
inductive Reachable (catalog : Catalog) (settings : Settings Float) : Cache → Prop where
  | empty : Reachable catalog settings {}
  | ask {cache : Cache} (a : Algebra) (shown : Bool) (k : Call) :
    Reachable catalog settings cache →
    Reachable catalog settings ((a.calculator catalog settings).ask cache shown k).2
  | clear {cache : Cache} :
    Reachable catalog settings cache → Reachable catalog settings cache.clear

/-- An answer that is computed is explained by its steps. -/
lemma fresh_explained {q : Question} {s : Solution} (trace : Trace)
    (h : (a.calculator catalog settings).fresh q = .ok s) :
    s.value.isFinite ∧ Explained a settings q s.trace { s with trace } := by
  rw [fresh, ← Question.canonical] at h
  simp only [compute, Algebra.calculator] at h
  obtain ⟨st, v, hr, hsolves⟩ | ⟨skipped, hr, hskips⟩ :=
    a.closedForm_cases q.canonical q.bindings q.unknown
  · rw [hr] at h
    cases h
    obtain ⟨_, _, hfirst⟩ := hsolves
    exact ⟨hfirst.finite, .inClosedForm ⟨_, ‹_›, hfirst⟩⟩
  · rw [hr] at h
    dsimp only at h
    cases ho : (Numeric.solve settings q.canonical q.bindings q.unknown).result with
    | error e =>
      rw [ho] at h
      cases h
    | ok o =>
      rw [ho] at h
      cases h
      obtain ⟨hfin, failed, hsearched, htrace⟩ := solve_ok ho
      rw [htrace]
      refine ⟨hfin, .searched hskips hsearched ?_⟩
      cases o <;> simp [Outcome.converged]

/-- Only finite values are kept. -/
lemma Reachable.isFinite (h : Reachable catalog settings cache) :
    ∀ en ∈ cache.entries, en.2.value.isFinite := by
  induction h with
  | empty => exact nofun
  | clear _ _ => exact nofun
  | ask a shown k _ ih =>
    intro en hen
    rw [ask_eq_call] at hen
    cases hq : (a.calculator catalog settings).question? k with
    | none =>
      rw [(call_of_none hq).2] at hen
      exact ih en hen
    | some q =>
      rw [call_of_some hq] at hen
      obtain hen | ⟨-, hs⟩ := mem_entries_answer hen
      · exact ih en hen
      · cases hf : (a.calculator catalog settings).fresh q with
        | ok s =>
          rw [hf] at hs
          rw [← Option.some.inj hs]
          exact (fresh_explained [] hf).1
        | error e =>
          rw [hf] at hs
          cases hs

/-- What is found in such a cache is finite. -/
lemma Reachable.found_isFinite {key : CacheKey} {v : Cached} (h : Reachable catalog settings cache)
    (hf : cache.find? key = some v) : v.value.isFinite := by
  simp only [Cache.find?, Option.map_eq_some_iff] at hf
  obtain ⟨en, hen, rfl⟩ := hf
  exact h.isFinite en (List.mem_of_find?_eq_some hen)

/-- What opens a trace ends it only if nothing follows. -/
lemma getLast?_opening (first : Step) (canonical : Trace) {steps : Trace} {v : Float}
    (h : steps.getLast?.bind Step.value? = some v) :
    (first :: (canonical ++ steps)).getLast?.bind Step.value? = some v := by
  cases hl : steps.getLast? with
  | none =>
    rw [hl] at h
    cases h
  | some step =>
    rw [hl] at h
    rw [← List.cons_append, List.getLast?_append, hl, Option.some_or]
    exact h

/--
At any time, the trace of an answer is the question, the formula in degrees if it differs, and steps
that explain the answer, the last of which has its value. That value is finite.
-/
theorem solve_explained (a : Algebra) (k : Call) {s : Solution}
    (hcache : Reachable catalog settings cache)
    (hs : ((a.calculator catalog settings).call cache k).1 = .ok s) :
    ∃ q, (a.calculator catalog settings).question? k = some q ∧
      ∃ steps, s.trace =
          .inputs q.equation.key q.equation.formula q.unknown q.bindings ::
            ((if q.canonical = q.equation.formula then [] else [.canonical q.canonical]) ++ steps) ∧
        Explained a settings q steps s ∧
        s.trace.getLast?.bind Step.value? = some s.value ∧
        s.value.isFinite := by
  cases hq : (a.calculator catalog settings).question? k with
  | none =>
    have hnone : Stop.answered? ((a.calculator catalog settings).call cache k).1 = none :=
      (call_of_none hq).1
    rw [hs] at hnone
    cases hnone
  | some q =>
    obtain ⟨steps, htrace, hfin, hsteps⟩ : ∃ steps, s.trace = q.opening ++ steps ∧
        s.value.isFinite ∧ Explained a settings q steps s := by
      have h : Answered _ cache q _ := answered_call hq
      generalize (a.calculator catalog settings).call cache k = r at h hs
      cases h with
      | hit hv =>
        cases hs
        exact ⟨_, rfl, hcache.found_isFinite hv, .fromCache⟩
      | computed _ hfresh =>
        cases hs
        obtain ⟨hfin, hsteps⟩ := fresh_explained _ hfresh
        exact ⟨_, rfl, hfin, hsteps⟩
      | failed _ _ => cases hs
    refine ⟨q, rfl, steps, htrace, hsteps, ?_, hfin⟩
    rw [htrace]
    exact getLast?_opening _ _ hsteps.last

/-- An infinite root is passed over, and the answer names the strategy after it. -/
theorem solve_explained_generic :
    let a : Algebra := ⟨Unit, fun _ _ _ => .ok (), fun s _ =>
      match s with
      | .linear => none
      | .quadratic => some (1.0 / 0.0)
      | .generic => some 2.0⟩
    let k : Call := ⟨.given ⟨"", "", "y = sin(x)", ["y", "x"], "", ""⟩, [("x", .text "2")], "y"⟩
    Reachable ⟨[], [], [], []⟩ .standard {} ∧
      ∃ s, ((a.calculator ⟨[], [], [], []⟩ .standard).call {} k).1 = .ok s ∧
        s.value = 2.0 ∧ ∃ q steps, Explained a .standard q steps s ∧
          s.trace.getLast?.bind Step.value? = some 2.0 := by
  intro a k
  let q : Question := ⟨⟨"", "", "y = sin(x)", ["y", "x"], "", ""⟩, "y", [("x", 2.0)]⟩
  have hq : (a.calculator ⟨[], [], [], []⟩ .standard).question? k = some q := rfl
  have hanswer : Stop.answered? ((a.calculator ⟨[], [], [], []⟩ .standard).call {} k).1 =
      some ⟨2.0, true⟩ := by
    rw [call_empty hq]
    rfl
  refine ⟨.empty, ?_⟩
  cases hs : ((a.calculator ⟨[], [], [], []⟩ .standard).call {} k).1 with
  | error e =>
    rw [hs] at hanswer
    cases hanswer
  | ok s =>
    rw [hs] at hanswer
    have hvalue : s.value = 2.0 := congrArg Cached.value (Option.some.inj hanswer)
    obtain ⟨q, -, steps, -, hsteps, hlast, -⟩ := solve_explained a k .empty hs
    exact ⟨s, rfl, hvalue, q, steps, hsteps, by rw [hlast, hvalue]⟩

end Calculator
end Formulary
