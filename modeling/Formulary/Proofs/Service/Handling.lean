import Formulary.Proofs.Calculator.Explanation
import Formulary.Proofs.Calculator.Reporting
import Formulary.Proofs.Formula.Selection
import Formulary.Proofs.Service.Acceptance

/-!
# What the service answers

A request is handled in one of three ways (`Handled`): its equation is not in the catalog, or the
calculator fails and the user is told why, or there is an answer, which is finite and comes with its
text and the unit of the unknown. No request ends in any other way if no formula of the catalog takes
a part or an element of a value (`handled_solve`), whatever was asked before and whatever the algebra
finds. The standard catalog has no such formula (`solve_handled`).
-/

namespace Formulary

open Formulary.Numeric Formulary.Text Formulary.Formula

namespace Calculator

variable {c : Calculator} {a : Algebra} {catalog : Catalog} {settings : Settings Float}
  {cache : Cache} {e : EquationRef} {inputs : Table Datum} {unknown : String}

/-- Whatever was asked before, an answer is finite. -/
lemma isFinite_of_call {k : Call} {s : Solution} (hcache : Reachable catalog settings cache)
    (hs : ((a.calculator catalog settings).call cache k).1 = .ok s) : s.value.isFinite := by
  cases hq : (a.calculator catalog settings).question? k with
  | none =>
    have hnone : Stop.answered? ((a.calculator catalog settings).call cache k).1 = none :=
      (call_of_none hq).1
    rw [hs] at hnone
    cases hnone
  | some q =>
    have h : Answered _ cache q _ := answered_call hq
    generalize (a.calculator catalog settings).call cache k = r at h hs
    cases h with
    | hit hv =>
      cases hs
      exact hcache.found_isFinite hv
    | computed _ hfresh =>
      cases hs
      exact (fresh_explained [] hfresh).1
    | failed _ _ => cases hs

/-- There are answers only for a variable of the equation that is no constant. -/
lemma isVariable_of_solve {s : Solution} (h : (c.solve cache e inputs unknown).1 = .ok s) :
    ∃ q, c.equation e = .ok q ∧ unknown ∈ q.symbols ∧ Catalog.isConstant unknown = false := by
  simp only [solve] at h
  cases he : c.equation e with
  | error f =>
    rw [he] at h
    cases h
  | ok q =>
    rw [he] at h
    dsimp only at h
    cases hb : c.bindings q inputs unknown with
    | error f =>
      rw [hb] at h
      cases h
    | ok bindings =>
      refine ⟨q, rfl, ?_⟩
      unfold Calculator.bindings at hb
      split at hb
      · cases hb
      · rename_i hvalid
        simpa using hvalid

end Calculator

namespace Service

open Calculator

/--
How a request is handled, given what the calculator makes of it: the equation is not found, or the
failure is told, or the answer is given, a finite number with its text and the unit of the unknown.
-/
inductive Handled (catalog : Catalog) (r : Request) :
    Except Stop Solution → Except Stop (Except Refusal FormattedSolution) → Prop where
  | notFound :
    catalog.equation? r.equation = none →
    Handled catalog r (.error (.failure (.unknownEquation r.equation)))
      (.ok (.error (.notFound (Failure.message (.unknownEquation r.equation)))))
  | refused {q : Equation} {f : Failure} :
    catalog.equation? r.equation = some q →
    Handled catalog r (.error (.failure f)) (.ok (.error (.unprocessable f.message)))
  | answered {q : Equation} {s : Solution} :
    catalog.equation? r.equation = some q →
    r.unknown ∈ q.symbols →
    s.value.isFinite →
    Handled catalog r (.ok s) (.ok (.ok
      ⟨r.unknown, s, displayText true s.value, (catalog.units.get? r.unknown).getD ""⟩))

/-- The cache after some requests, each with what the algebra finds at that time. -/
def cacheAfter (catalog : Catalog) (settings : Settings Float) :
    Cache → List (Algebra × Request) → Cache
  | cache, [] => cache
  | cache, (a, r) :: rest =>
    cacheAfter catalog settings (solve (a.calculator catalog settings) cache r).2 rest

variable {a : Algebra} {catalog : Catalog} {settings : Settings Float} {cache : Cache} {r : Request}

/-- A request leaves the cache as the calculator does. -/
lemma reachable_solve (h : Reachable catalog settings cache) :
    Reachable catalog settings (solve (a.calculator catalog settings) cache r).2 := by
  rw [solve_eq_respond]
  exact h.ask a true ⟨.key r.equation, r.values, r.unknown⟩

/-- Any requests lead from a reachable cache to another one. -/
lemma reachable_cacheAfter {requests : List (Algebra × Request)}
    (h : Reachable catalog settings cache) :
    Reachable catalog settings (cacheAfter catalog settings cache requests) := by
  induction requests generalizing cache with
  | nil => exact h
  | cons request rest ih => exact ih (reachable_solve h)

/-! ### How requests are handled -/

/-- What the calculator makes of a request, with the text of the answer and its unit. -/
lemma fst_solveAndFormat (c : Calculator) (cache : Cache) (e : EquationRef) (inputs : Table Datum)
    (unknown : String) :
    (c.solveAndFormat cache e inputs unknown).1 = (c.solve cache e inputs unknown).1.map
      fun s => ⟨unknown, s, displayText true s.value, c.catalog.unit unknown⟩ := by
  unfold solveAndFormat
  split <;> rename_i heq <;> rw [heq] <;> rfl

/-- An equation is found under its key in the catalog. -/
lemma equation_key {c : Calculator} {key : String} {q : Equation} :
    c.equation (.key key) = .ok q ↔ c.catalog.equation? key = some q := by
  cases h : c.catalog.equation? key <;> simp [equation, h]

/-- A request for an equation of the catalog is not refused as one for none. -/
lemma ofFailure_of_failsWith {c : Calculator} {inputs : Table Datum} {unknown key : String}
    {q : Equation} {f : Failure} (hq : c.catalog.equation? key = some q)
    (h : FailsWith c inputs unknown (.key key) f) :
    Refusal.ofFailure f = .unprocessable f.message := by
  cases h with
  | equation hnone =>
    rw [hq] at hnone
    cases hnone
  | «unknown» => rfl
  | «variable» _ hfirst =>
    obtain rfl | ⟨v, rfl, -⟩ := failure_of_variableValue hfirst.fails
    · rfl
    · rfl
  | root => rfl

/-- With an equation that selects nothing or with none, a request is handled. -/
theorem handled_solve (hcache : Reachable catalog settings cache)
    (hflat : 0.0 < settings.flatSlope)
    (hformula : ∀ q, catalog.equation? r.equation = some q → selectsNothing q.formula.toList) :
    Handled catalog r
      ((a.calculator catalog settings).solve cache (.key r.equation) r.values r.unknown).1
      (solve (a.calculator catalog settings) cache r).1 := by
  rw [solve_eq_respond, fst_solveAndFormat]
  cases hsolve :
      ((a.calculator catalog settings).solve cache (.key r.equation) r.values r.unknown).1 with
  | ok s =>
    obtain ⟨q, hq, hmem, hvariable⟩ := isVariable_of_solve hsolve
    have hfinite : s.value.isFinite :=
      isFinite_of_call (k := ⟨.key r.equation, r.values, r.unknown⟩) hcache hsolve
    have hunit : catalog.unit r.unknown = (catalog.units.get? r.unknown).getD "" := by
      simp only [Catalog.unit, hvariable, Bool.false_eq_true, if_false]
    show Handled catalog r _ (.ok (.ok ⟨r.unknown, s, _, catalog.unit r.unknown⟩))
    rw [hunit]
    exact .answered (equation_key.1 hq) hmem hfinite
  | error stop =>
    cases stop with
    | failure f =>
      have hfails := failsWith_of_solve hsolve
      show Handled catalog r _ (.ok (.error (Refusal.ofFailure f)))
      cases hq : catalog.equation? r.equation with
      | none =>
        -- The other ways to fail presuppose an equation.
        have hsome : ∀ {q}, (a.calculator catalog settings).equation (.key r.equation) ≠ .ok q :=
          fun h => by cases hq.symm.trans (equation_key.1 h)
        cases hfails with
        | equation => exact .notFound hq
        | «unknown» h | «variable» h | root h => exact absurd h hsome
      | some q =>
        rw [ofFailure_of_failsWith hq hfails]
        exact .refused hq
    | interrupted i =>
      obtain ⟨q, hq, hselects⟩ := selects_of_interrupted hsolve
      simp [hformula q (equation_key.1 hq)] at hselects
    | zeroSlope =>
      obtain ⟨q, hq, hcause⟩ := unreported_zeroSlope hsolve
      cases hcause with
      | slope hnot => exact absurd hflat hnot

/-- No formula of the standard catalog takes a part or an element of a value. -/
lemma selectsNothing_standard {key : String} {q : Equation}
    (h : Catalog.standard.equation? key = some q) : selectsNothing q.formula.toList := by
  have hall : ∀ p ∈ Catalog.standard.equations, selectsNothing p.2.formula.toList := by
    decide +kernel
  exact hall _ (mem_of_lookup h)

/-- With the standard catalog and settings, each of any requests is handled. -/
theorem solve_handled (requests : List (Algebra × Request)) (a : Algebra) (r : Request) :
    let cache := cacheAfter Catalog.standard .standard {} requests
    let c := a.calculator Catalog.standard .standard
    Handled Catalog.standard r (c.solve cache (.key r.equation) r.values r.unknown).1
      (solve c cache r).1 :=
  handled_solve (reachable_cacheAfter .empty) (by decide +kernel)
    fun _ hq => selectsNothing_standard hq

end Service
end Formulary
