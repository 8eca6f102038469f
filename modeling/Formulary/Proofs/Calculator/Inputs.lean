import Formulary.Calculator
import Formulary.Proofs.Lookup

/-!
# What a request reads of its inputs

A request needs an input for each variable of its equation but the unknown and the constants
(`Equation.Needs`), and of that input only what it stands for (`Calculator.entered`): a number, or
the failure that it is rejected with. Nothing else of the inputs bears on the answer or on the cache
after it, and a request is rejected for the first variable that fails (`solve_reads_needed`).
`FailsWith` lists all ways in which a request fails.
-/

namespace Formulary

open Formulary.Number

/-- That a request for an unknown needs an input under a name. -/
structure Equation.Needs (e : Equation) (unknown name : String) : Prop where
  isVariable : name ∈ e.symbols
  ne_unknown : name ≠ unknown
  not_constant : Catalog.isConstant name = false

namespace Calculator

/-- What is read of an input that may be absent: a number, or the failure that it is rejected with. -/
def readInput (name : String) : Option Datum → Except Failure Float
  | none | some .null => .error (.missingVariable name)
  | some raw => readValue name raw

/-- What the input under a name stands for. -/
def entered (inputs : Table Datum) (name : String) : Except Failure Float :=
  readInput name (inputs.get? name)

/-- That inputs stand for the same wherever a request needs them. -/
def SameEntered (e : Equation) (unknown : String) (inputs inputs' : Table Datum) : Prop :=
  ∀ name, e.Needs unknown name → entered inputs name = entered inputs' name

/-- That a variable is the first one but the unknown which has no value, and how it fails. -/
structure FailsFirst (c : Calculator) (inputs : Table Datum) (unknown : String)
    (names : List String) (name : String) (f : Failure) : Prop where
  ne_unknown : name ≠ unknown
  fails : c.variableValue inputs name = .error f
  first : ∃ before after, names = before ++ name :: after ∧
    ∀ n ∈ before, n ≠ unknown → ∃ x, c.variableValue inputs n = .ok x

variable {c : Calculator} {e : Equation} {inputs inputs' : Table Datum} {unknown name n : String}
  {names : List String} {raw raw' : Datum} {f : Failure}

/-- A variable that is no constant has the value that its input stands for. -/
lemma variableValue_of_not_constant (h : Catalog.isConstant name = false) :
    c.variableValue inputs name = entered inputs name := by
  simp only [variableValue, h, Bool.false_eq_true, if_false]
  rfl

/-- An input is rejected as missing or with its value in the message. -/
lemma failure_of_readValue (h : readValue name raw = .error f) :
    f = .missingVariable name ∨ f = .invalidNumber name raw := by
  unfold readValue at h
  grind

/-- A variable has no value if it is missing, or is no constant and its input is rejected. -/
lemma failure_of_variableValue (h : c.variableValue inputs name = .error f) :
    f = .missingVariable name ∨ ∃ raw, f = .invalidNumber name raw ∧
      Catalog.isConstant name = false ∧ inputs.get? name = some raw := by
  cases hc : Catalog.isConstant name with
  | true =>
    simp only [variableValue, hc, if_true] at h
    split at h
    · cases h
    · exact .inl (Except.error.inj h).symm
  | false =>
    rw [variableValue_of_not_constant hc, entered] at h
    unfold readInput at h
    split at h
    · exact .inl (Except.error.inj h).symm
    · exact .inl (Except.error.inj h).symm
    · rename_i raw _ hraw
      exact (failure_of_readValue h).imp_right fun hf => ⟨raw, hf, rfl, hraw⟩

/-- A failure to bind a variable that is not told quotes its input, which cannot be written. -/
lemma unwritable_of_variableValue (h : c.variableValue inputs name = .error f)
    (hf : f.isTold = false) : Catalog.isConstant name = false ∧
      ∃ raw, f = .invalidNumber name raw ∧ inputs.get? name = some raw ∧ raw.isWritable = false := by
  obtain rfl | ⟨raw, rfl, hc, hget⟩ := failure_of_variableValue h
  · cases hf
  · exact ⟨hc, raw, rfl, hget, hf⟩

/-- Variables with inputs that stand for the same have the same value. -/
lemma variableValue_congr (h : Catalog.isConstant name = false →
    entered inputs name = entered inputs' name) :
    c.variableValue inputs name = c.variableValue inputs' name := by
  cases hc : Catalog.isConstant name with
  | true => simp only [variableValue, hc, if_true]
  | false => rw [variableValue_of_not_constant hc, variableValue_of_not_constant hc, h hc]

/-- Variables are bound alike where their inputs stand for the same. -/
lemma bindVariables_congr (h : ∀ name ∈ names, name ≠ unknown →
      c.variableValue inputs name = c.variableValue inputs' name) (bindings : Table Float) :
    c.bindVariables inputs unknown names bindings =
      c.bindVariables inputs' unknown names bindings := by
  induction names generalizing bindings with
  | nil => rfl
  | cons name rest ih =>
    rw [List.forall_mem_cons] at h
    unfold bindVariables
    split
    · exact ih h.2 bindings
    · rename_i hne
      simp only [h.1 hne, ih h.2]

/-- A request binds alike what stands for the same wherever it is needed. -/
lemma SameEntered.bindings_eq (h : SameEntered e unknown inputs inputs') :
    c.bindings e inputs unknown = c.bindings e inputs' unknown := by
  rw [bindings, bindings, bindVariables_congr]
  exact fun name hname hne => variableValue_congr fun hc => h name ⟨hname, hne, hc⟩

/-- The first variable of some is passed over if it is the unknown or has a value. -/
lemma FailsFirst.cons (hn : n ≠ unknown → ∃ x, c.variableValue inputs n = .ok x)
    (h : FailsFirst c inputs unknown names name f) :
    FailsFirst c inputs unknown (n :: names) name f := by
  obtain ⟨before, after, rfl, hbefore⟩ := h.first
  exact ⟨h.ne_unknown, h.fails, n :: before, after, rfl, List.forall_mem_cons.2 ⟨hn, hbefore⟩⟩

/-- Only the failing variable itself stands at the beginning, if it does not come later. -/
lemma FailsFirst.cases_cons (h : FailsFirst c inputs unknown (n :: names) name f) :
    n ≠ unknown ∧ c.variableValue inputs n = .error f ∨
      (n ≠ unknown → ∃ x, c.variableValue inputs n = .ok x) ∧
        FailsFirst c inputs unknown names name f := by
  obtain ⟨before, after, hnames, hbefore⟩ := h.first
  cases before with
  | nil =>
    obtain ⟨rfl, -⟩ := List.cons.inj hnames
    exact .inl ⟨h.ne_unknown, h.fails⟩
  | cons m before =>
    obtain ⟨rfl, rfl⟩ := List.cons.inj hnames
    rw [List.forall_mem_cons] at hbefore
    exact .inr ⟨hbefore.1, h.ne_unknown, h.fails, before, after, rfl, hbefore.2⟩

/-- The variable that fails first is one of them. -/
lemma FailsFirst.mem (h : FailsFirst c inputs unknown names name f) : name ∈ names := by
  obtain ⟨before, after, rfl, -⟩ := h.first
  simp

/-- Binding variables fails as the first of them that fails does. -/
lemma bindVariables_eq_error (bindings : Table Float) :
    c.bindVariables inputs unknown names bindings = .error f ↔
      ∃ name, FailsFirst c inputs unknown names name f := by
  induction names generalizing bindings with
  | nil =>
    refine ⟨nofun, ?_⟩
    rintro ⟨name, h⟩
    obtain ⟨before, after, hnames, -⟩ := h.first
    simp at hnames
  | cons n rest ih =>
    unfold bindVariables
    split
    · rename_i hn
      rw [ih]
      constructor
      · rintro ⟨name, h⟩
        exact ⟨name, h.cons fun hne => absurd hn hne⟩
      · rintro ⟨name, h⟩
        obtain ⟨hne, -⟩ | ⟨-, h⟩ := h.cases_cons
        · exact absurd hn hne
        · exact ⟨name, h⟩
    · rename_i hn
      cases hv : c.variableValue inputs n with
      | error g =>
        constructor
        · intro h
          cases h
          exact ⟨n, hn, hv, [], rest, rfl, nofun⟩
        · rintro ⟨name, h⟩
          obtain ⟨-, hf⟩ | ⟨hok, -⟩ := h.cases_cons
          · rw [← hv, hf]
            rfl
          · obtain ⟨x, hx⟩ := hok hn
            cases hv.symm.trans hx
      | ok x =>
        show c.bindVariables inputs unknown rest (Table.put n x bindings) = .error f ↔ _
        rw [ih]
        constructor
        · rintro ⟨name, h⟩
          exact ⟨name, h.cons fun _ => ⟨x, hv⟩⟩
        · rintro ⟨name, h⟩
          obtain ⟨-, hf⟩ | ⟨-, h⟩ := h.cases_cons
          · cases hv.symm.trans hf
          · exact ⟨name, h⟩

/-- How a request comes to fail. -/
inductive FailsWith (c : Calculator) (inputs : Table Datum) (unknown : String) :
    EquationRef → Failure → Prop where
  | equation {key : String} :
    c.catalog.equation? key = none →
    FailsWith c inputs unknown (.key key) (.unknownEquation key)
  | unknown {e : EquationRef} {q : Equation} :
    c.equation e = .ok q →
    unknown ∉ q.symbols ∨ Catalog.isConstant unknown →
    FailsWith c inputs unknown e (.unknownVariable unknown q.key)
  | variable {e : EquationRef} {q : Equation} {name : String} {f : Failure} :
    c.equation e = .ok q →
    FailsFirst c inputs unknown q.symbols name f →
    FailsWith c inputs unknown e f
  | root {e : EquationRef} {q : Equation} {reason : NoRoot} :
    c.equation e = .ok q →
    FailsWith c inputs unknown e (.noRoot unknown reason)

/-- A search fails for want of a root, if it fails at all. -/
lemma noRoot_of_search {s : Numeric.Settings Float} {formula : String} {bindings : Table Float}
    (h : (Numeric.solve s formula bindings unknown).result = .error (.failure f)) :
    ∃ reason, f = .noRoot unknown reason := by
  simp only [Numeric.solve] at h
  split at h
  · cases h
    exact ⟨_, rfl⟩
  · split at h
    · simp only [Numeric.Search.report] at h
      split at h <;> cases h <;> exact ⟨_, rfl⟩
    · cases h

/-- A request that passed its checks stops only where the numeric solution of its formula does. -/
lemma result_of_answer {cache : Cache} {q : Equation} {bindings : Table Float} {stop : Stop}
    (h : (c.answer cache q bindings unknown).1 = .error stop) :
    (Numeric.solve c.settings (String.ofList (Formula.canonical q.formula.toList)) bindings
      unknown).result = .error stop := by
  simp only [answer] at h
  split at h
  · cases h
  · split at h
    · cases h
    · rename_i heq
      cases h
      simp only [compute] at heq
      split at heq
      · cases heq
      · split at heq
        · cases heq
        · rename_i hsearch
          cases heq
          exact hsearch

/-- A request without a failure to tell stops where the numeric solution of its formula does. -/
lemma result_of_solve {cache : Cache} {e : EquationRef} {stop : Stop}
    (h : (c.solve cache e inputs unknown).1 = .error stop) (hstop : ∀ f, stop ≠ .failure f) :
    ∃ q bindings, c.equation e = .ok q ∧
      (Numeric.solve c.settings (String.ofList (Formula.canonical q.formula.toList)) bindings
        unknown).result = .error stop := by
  simp only [solve] at h
  cases he : c.equation e with
  | error f =>
    rw [he] at h
    cases h
    exact absurd rfl (hstop f)
  | ok q =>
    rw [he] at h
    dsimp only at h
    cases hb : c.bindings q inputs unknown with
    | error f =>
      rw [hb] at h
      cases h
      exact absurd rfl (hstop f)
    | ok bindings =>
      rw [hb] at h
      exact ⟨q, bindings, rfl, result_of_answer h⟩

/-- A request that fails does so in one of these ways. -/
theorem failsWith_of_solve {cache : Cache} {e : EquationRef}
    (h : (c.solve cache e inputs unknown).1 = .error (.failure f)) :
    FailsWith c inputs unknown e f := by
  simp only [solve] at h
  cases he : c.equation e with
  | error g =>
    rw [he] at h
    cases h
    cases e with
    | given q => cases he
    | key k =>
      simp only [equation] at he
      split at he
      · cases he
      · cases he
        exact .equation ‹_›
  | ok q =>
    rw [he] at h
    dsimp only at h
    cases hb : c.bindings q inputs unknown with
    | error g =>
      rw [hb] at h
      cases h
      simp only [bindings] at hb
      split at hb
      · rename_i hinvalid
        cases hb
        exact .unknown he (by simpa using hinvalid)
      · obtain ⟨name, hname⟩ := (bindVariables_eq_error []).1 hb
        exact .variable he hname
    | ok bindings =>
      rw [hb] at h
      obtain ⟨reason, rfl⟩ := noRoot_of_search (result_of_answer h)
      exact .root he

/-- The outcome of a request depends on its bindings only. -/
lemma solve_congr (cache : Cache) {e : EquationRef}
    (h : ∀ q, c.equation e = .ok q → c.bindings q inputs unknown = c.bindings q inputs' unknown) :
    c.solve cache e inputs unknown = c.solve cache e inputs' unknown := by
  unfold solve
  cases he : c.equation e with
  | error f => rfl
  | ok q => simp only [h q he]

/-- What an input stands for that is put in, and the others. -/
lemma entered_put : entered (Table.put name raw inputs) n =
    if n = name then readInput name (some raw) else entered inputs n := by
  simp only [entered, Table.get?_put]
  split
  · rename_i hn
    rw [hn]
  · rfl

/-- Inputs stand for the same in any order. -/
lemma entered_perm (hnd : inputs.keys.Nodup) (hp : inputs.Perm inputs') (name : String) :
    entered inputs name = entered inputs' name := by
  simp only [entered, Table.get?, lookup_perm hnd hp name]

/--
Inputs that stand for the same where they are needed have the same outcome and leave the same cache.
So it does not matter what is put in under a name that is not needed, in which order the inputs
stand, and how a number is written. A request is rejected as its first failing variable is.
-/
theorem solve_reads_needed (c : Calculator) (cache : Cache) (e : EquationRef) (unknown : String) :
    (∀ inputs inputs', (∀ q, c.equation e = .ok q → SameEntered q unknown inputs inputs') →
      c.solve cache e inputs unknown = c.solve cache e inputs' unknown) ∧
    (∀ inputs name raw, (∀ q, c.equation e = .ok q → ¬ q.Needs unknown name) →
      c.solve cache e (Table.put name raw inputs) unknown = c.solve cache e inputs unknown) ∧
    (∀ inputs inputs' : Table Datum, inputs.keys.Nodup → inputs.Perm inputs' →
      c.solve cache e inputs unknown = c.solve cache e inputs' unknown) ∧
    (∀ inputs name raw raw', readInput name (some raw) = readInput name (some raw') →
      c.solve cache e (Table.put name raw inputs) unknown =
        c.solve cache e (Table.put name raw' inputs) unknown) ∧
    ∀ inputs q name f, c.equation e = .ok q → unknown ∈ q.symbols →
      Catalog.isConstant unknown = false → FailsFirst c inputs unknown q.symbols name f →
        c.solve cache e inputs unknown = (.error (.failure f), cache) := by
  have same : ∀ inputs inputs', (∀ q, c.equation e = .ok q → SameEntered q unknown inputs inputs') →
      c.solve cache e inputs unknown = c.solve cache e inputs' unknown :=
    fun inputs inputs' h => solve_congr cache fun q hq => (h q hq).bindings_eq
  refine ⟨same, ?_, ?_, ?_, ?_⟩
  · intro inputs name raw hname
    refine same _ _ fun q hq n hn => ?_
    have hne : n ≠ name := fun heq => hname q hq (heq ▸ hn)
    rw [entered_put, if_neg hne]
  · intro inputs inputs' hnd hp
    exact same _ _ fun q _ n _ => entered_perm hnd hp n
  · intro inputs name raw raw' hraw
    refine same _ _ fun q _ n _ => ?_
    rw [entered_put, entered_put, hraw]
  · intro inputs q name f hq hmem hc hf
    have hb : c.bindings q inputs unknown = .error f := by
      have hvalid : (!q.symbols.contains unknown || Catalog.isConstant unknown) = false := by
        simp [hmem, hc]
      rw [bindings, hvalid]
      exact (bindVariables_eq_error []).2 ⟨name, hf⟩
    simp only [solve, hq, hb]

/--
An input for the unknown and one that no variable has do not matter, nor does the spelling of a
number; of two variables without a value the first one of the equation is named.
-/
theorem solve_reads_needed_sum :
    let c : Calculator := ⟨⟨[], [], [], []⟩, .standard, fun _ _ _ => ⟨[.noClosedForm .notFound], none⟩⟩
    let e : EquationRef := .given ⟨"", "", "z = y + x", ["z", "y", "x"], "", ""⟩
    c.solve {} e [("x", .text "2.0"), ("y", .integer 1)] "z" =
      c.solve {} e [("w", .null), ("y", .text "1e0"), ("z", .text "?"), ("x", .text " 2 ")] "z" ∧
    c.solve {} e [("x", .text "?"), ("y", .text " ")] "z" =
      (.error (.failure (.missingVariable "y")), {}) := by
  intro c e
  constructor
  · refine (solve_reads_needed c {} e "z").1 _ _ fun q hq name hname => ?_
    cases hq
    obtain ⟨hmem, hne, -⟩ := hname
    simp only [List.mem_cons, List.not_mem_nil, or_false] at hmem
    obtain rfl | rfl | rfl := hmem
    · exact absurd rfl hne
    · rfl
    · rfl
  · exact (solve_reads_needed c {} e "z").2.2.2.2 _ _ "y" _ rfl (by decide) (by decide +kernel)
      ⟨by decide, rfl, ["z"], ["x"], rfl, by simp⟩

end Calculator
end Formulary
