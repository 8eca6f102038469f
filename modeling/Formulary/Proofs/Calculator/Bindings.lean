import Formulary.Calculator
import Formulary.Proofs.Formula.Order
import Formulary.Proofs.Lookup

/-!
# The bindings of a request

The bindings of a request that passes its checks bind each variable but the unknown once, and to a
finite number unless it is a constant (`bindings_wellFormed`).
-/

namespace Formulary

open Formulary.Number Formulary.Formula

namespace Calculator

variable {c : Calculator} {inputs : Table Datum} {unknown name : String}

/-- What a user gives as a number is finite. -/
lemma readValue_isFinite {raw : Datum} {x : Float} (h : readValue name raw = .ok x) :
    x.isFinite := by
  unfold readValue at h
  split at h
  · cases h
  · rename_i n
    cases hn : floatOfInt? n with
    | none => simp [hn] at h
    | some y =>
      simp only [hn] at h
      cases h
      exact isFinite_of_floatOfInt? hn
  · simp only at h
    split at h
    · cases h
      assumption
    · cases h
  · simp only at h
    split at h
    · cases h
    · split at h
      · split at h
        · cases h
          assumption
        · cases h
      · cases h

/--
What a user gives for a variable is bound as a finite double; only constants may be anything else.
-/
lemma variableValue_isFinite {x : Float} (h : c.variableValue inputs name = .ok x) :
    x.isFinite ∨ Catalog.isConstant name := by
  unfold variableValue at h
  split at h
  · exact .inr ‹_›
  · split at h
    · cases h
    · cases h
    · exact .inl (readValue_isFinite h)

/-- What the bindings of a request satisfy. -/
structure WellFormed (symbols : List String) (unknown : String) (bindings : Table Float) : Prop where
  nodup : (bindings.map (·.1)).Nodup
  isVariable : ∀ b ∈ bindings, b.1 ∈ symbols ∧ b.1 ≠ unknown
  finite : ∀ b ∈ bindings, b.2.isFinite ∨ Catalog.isConstant b.1

/-- One more variable of the equation keeps bindings well-formed. -/
lemma WellFormed.put {symbols : List String} {bindings : Table Float} {x : Float}
    (h : WellFormed symbols unknown bindings) (hname : name ∈ symbols) (hne : name ≠ unknown)
    (hx : x.isFinite ∨ Catalog.isConstant name) :
    WellFormed symbols unknown (Table.put name x bindings) where
  nodup := Table.nodup_keys_put h.nodup
  isVariable := by
    rintro ⟨k, v⟩ hb
    obtain hb | hb := Table.mem_put hb
    · cases hb
      exact ⟨hname, hne⟩
    · exact h.isVariable _ hb
  finite := by
    rintro ⟨k, v⟩ hb
    obtain hb | hb := Table.mem_put hb
    · cases hb
      exact hx
    · exact h.finite _ hb

/-- Variables are bound one after the other, and the unknown is passed over. -/
lemma bindVariables_cons_eq_ok {names : List String} {bindings result : Table Float} :
    c.bindVariables inputs unknown (name :: names) bindings = .ok result ↔
      name = unknown ∧ c.bindVariables inputs unknown names bindings = .ok result ∨
        name ≠ unknown ∧ ∃ x, c.variableValue inputs name = .ok x ∧
          c.bindVariables inputs unknown names (Table.put name x bindings) = .ok result := by
  rw [bindVariables]
  by_cases hname : name = unknown
  · simp [hname]
  · cases c.variableValue inputs name <;> simp [hname, bind, Except.bind]

/-- Binding one variable after the other keeps bindings well-formed. -/
lemma bindVariables_wellFormed {symbols names : List String} {bindings result : Table Float}
    (hsub : names ⊆ symbols) (hwf : WellFormed symbols unknown bindings)
    (h : c.bindVariables inputs unknown names bindings = .ok result) :
    WellFormed symbols unknown result := by
  induction names generalizing bindings with
  | nil =>
    cases h
    exact hwf
  | cons name rest ih =>
    rw [List.cons_subset] at hsub
    obtain ⟨-, h⟩ | ⟨hne, x, hx, h⟩ := bindVariables_cons_eq_ok.1 h
    · exact ih hsub.2 hwf h
    · exact ih hsub.2 (hwf.put hsub.1 hne (variableValue_isFinite hx)) h

/-- The bindings of a request bind each variable but the unknown, once. -/
theorem bindings_wellFormed {e : Equation} {bindings : Table Float}
    (h : c.bindings e inputs unknown = .ok bindings) : WellFormed e.symbols unknown bindings := by
  have hnil : WellFormed e.symbols unknown [] := ⟨List.nodup_nil, nofun, nofun⟩
  unfold Calculator.bindings at h
  split at h
  · cases h
  · exact bindVariables_wellFormed (List.Subset.refl _) hnil h

/-- Names of constants are longer than the texts of values that are not finite. -/
lemma lt_length_of_isConstant (h : Catalog.isConstant name) : 3 < name.length := by
  have hp := (String.startsWith_string_iff.1 h).length_le
  rw [String.length_toList, String.length_toList] at hp
  exact Nat.lt_of_lt_of_le (by decide) hp

/-- Where all variables are symbols, the order in which values are written does not matter. -/
lemma WellFormed.separate {symbols : List String} {bindings : Table Float}
    (h : WellFormed symbols unknown bindings) (hs : ∀ s ∈ symbols, isSymbol s.toList) :
    Separate bindings where
  nodup := h.nodup
  symbol b hb := hs _ (h.isVariable b hb).1
  finite b hb := (h.finite b hb).imp_right lt_length_of_isConstant

end Calculator
end Formulary
