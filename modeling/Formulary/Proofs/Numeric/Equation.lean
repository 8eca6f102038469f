import Formulary.Proofs.Formula.Parsing
import Formulary.Proofs.Numeric.Order
import Formulary.Table

/-!
# The residual of two terms

The residual of the formula of two terms is their difference. It is built if the unknown is one of
the symbols, all others have values, and the parentheses are not nested too deeply
(`build_formula`); its value is that of the difference of the terms, whatever it has been evaluated
at before. A compiler that gives up on some texts makes no difference for the others.
-/

namespace Formulary

open Formula Number Text

namespace Formula

variable {a : Aliases} {ls : List Lexeme} {s u v : List Char} {n : String}

/-- The text of the difference of two sides that consist of lexemes. -/
lemma residual_written {σ : Symbol → List Char} {rs : List Lexeme} (hu : Written σ ls u)
    (hv : Written σ rs v) (hσ : Adhering σ) (hls : ls ≠ []) (hrs : rs ≠ []) :
    residual (u ++ '=' :: v) = .ok (differenceText (trim u) (trim v)) := by
  have htrim : ∀ {ls s}, Written σ ls s → ls ≠ [] → trim s ≠ [] := by
    intro ls s h hls hnil
    have h := h.trim hσ
    rw [hnil] at h
    exact hls (h.eq_nil hσ)
  have hsides : sides (u ++ '=' :: v) = .ok (trim u, trim v) := by
    simp [sides, splitAtEquals_append (hu.equals_notMem hσ) (hv.equals_notMem hσ), htrim hu hls,
      htrim hv hrs]
  rw [residual, hsides]
  rfl

/-- Names that are not reserved have no value of their own. -/
lemma builtin?_eq_none (h : isReserved n = false) : Value.builtin? n = none := by
  have hn : n ∉ reservedNames := by simpa [isReserved] using h
  simp only [reservedNames, constantNames, List.mem_append, List.mem_map, List.mem_cons,
    List.not_mem_nil, or_false, not_or, not_exists, not_and] at hn
  have hfunction : Function.ofName? n = none := by
    rw [Function.ofName?, List.find?_eq_none]
    intro f hf
    simpa using hn.1 f hf
  simp [Value.builtin?, hfunction, hn.2]

end Formula

/-- A compiler that does not give up on a text compiles it. -/
lemma Expression.compileWithin_eq_some {givesUp : List Char → Bool} {s : List Char}
    (h : givesUp (withPowerSigns s) = false) :
    compileWithin givesUp s = some (compile s) := by
  simp [compileWithin, h]

namespace Numeric.Residual

variable {a : Aliases} {bindings : List (String × Float)} {n y unknown : String}

/-- A symbol has the same value under its alias. -/
lemma lookup_scopeOf (ha : a.Numbered) (hn : a.lookup n = some y) :
    (scopeOf a bindings).lookup y = bindings.lookup n := by
  induction bindings with
  | nil => rfl
  | cons b bindings ih =>
    obtain ⟨name, v⟩ := b
    rw [scopeOf_cons, List.lookup_cons]
    by_cases hname : n = name
    · subst hname
      simp [hn]
    · rw [beq_eq_false_iff_ne.2 hname]
      cases hother : a.lookup name with
      | none => exact ih
      | some z =>
        have hyz : y ≠ z := by
          rintro rfl
          exact hname (ha.lookup_injective hn hother)
        simp only [List.lookup_cons, beq_eq_false_iff_ne.2 hyz]
        exact ih

/-- Only aliases are bound. -/
lemma lookup_scopeOf_eq_none (ha : a.Numbered) (hn : isReserved n) :
    (scopeOf a bindings).lookup n = none := by
  rw [List.lookup_eq_none_iff]
  rintro ⟨z, v⟩ hmem
  obtain ⟨name, -, hz⟩ := mem_scopeOf.1 hmem
  obtain ⟨i, rfl⟩ := ha.alias hz
  rw [bne_iff_ne]
  rintro rfl
  rw [isReserved_alias] at hn
  cases hn

/-- The compiler is not asked for a formula in which the unknown does not occur. -/
lemma buildWithin_of_absent {givesUp : List Char → Bool} {formula : String} {text : List Char}
    (htext : residual formula.toList = .ok text) (hx : (aliased text).2.lookup unknown = none) :
    buildWithin givesUp formula bindings unknown = some (build formula bindings unknown) := by
  simp [buildWithin, htext, hx]

/-- A compiler that does not give up on the text of a formula makes no difference. -/
lemma buildWithin_of_compiled {givesUp : List Char → Bool} {formula : String} {text : List Char}
    (htext : residual formula.toList = .ok text)
    (h : givesUp (withPowerSigns (aliased text).1) = false) :
    buildWithin givesUp formula bindings unknown = some (build formula bindings unknown) := by
  simp [buildWithin, htext, Expression.compileWithin_eq_some h]

/-- The names of an expression that have no value. -/
def unboundOf (e : Expression) (x : String) (scope : Expression.Scope) : List String :=
  e.freeNames.filter fun n => n != x && (scope.lookup n).isNone

/-- What is built of a text that is compiled. -/
lemma build_of_compiled {formula : String} {text : List Char} {x : String} {e : Expression}
    (htext : residual formula.toList = .ok text) (ha : (aliased text).2 = a)
    (hx : a.lookup unknown = some x) (he : Expression.compile (aliased text).1 = .ok e) :
    build formula bindings unknown =
      if (unboundOf e x (scopeOf a bindings)).isEmpty then .ok ⟨e, x, scopeOf a bindings⟩
      else .error (.unbound (((unboundOf e x (scopeOf a bindings)).map fun n =>
        (a.symbolOf? n).getD n).mergeSort fun a b => a ≤ b)) := by
  subst ha
  simp only [build, htext, pure_bind, hx, he]
  rfl

section
variable {l r t : Term} {u v : List Char} {x : String}

/-- The alias of a symbol of a term. -/
lemma lookup_text {ss : List Symbol} {s : Symbol} (h : Names [] ss a) (hs : s ∈ ss) :
    a.lookup s.name = some (String.ofList (a.text s)) := by
  have hsome := (h.isSome_lookup s.name).2 (.inr ⟨s, hs, rfl⟩)
  obtain ⟨y, hy⟩ := Option.isSome_iff_exists.1 hsome
  rw [Aliases.text, hy, Option.getD_some, String.ofList_toList]

/-- The alias of the unknown. -/
lemma exists_alias {ss : List Symbol} (h : Names [] ss a) (hx : unknown ∈ ss.map Symbol.name) :
    ∃ x, a.lookup unknown = some x := by
  obtain ⟨s, hs, rfl⟩ := List.mem_map.1 hx
  exact ⟨_, lookup_text h hs⟩

/-- The symbols that have no value, other than the unknown. -/
def Unbound (t : Term) (bindings : List (String × Float)) (unknown : String) (s : Symbol) : Prop :=
  s ∈ t.symbols ∧ s.name ≠ unknown ∧ bindings.lookup s.name = none

/-- The names without a value are the aliases of the symbols without one. -/
lemma mem_unboundOf (h : Names [] t.symbols a) (hx : a.lookup unknown = some x) :
    n ∈ unboundOf (t.expression a.text) x (scopeOf a bindings) ↔
      ∃ s, Unbound t bindings unknown s ∧ a.lookup s.name = some n := by
  simp only [unboundOf, List.mem_filter, Expression.mem_freeNames, Bool.and_eq_true, bne_iff_ne,
    Option.isNone_iff_eq_none]
  constructor
  · rintro ⟨⟨hn, hb⟩, hne, hnone⟩
    obtain ⟨s, hs, rfl⟩ := (Term.mem_names hb).1 hn
    have hlookup := lookup_text h hs
    refine ⟨s, ⟨hs, ?_, ?_⟩, hlookup⟩
    · rintro rfl
      rw [hx] at hlookup
      exact hne (Option.some.inj hlookup.symm)
    · rwa [← lookup_scopeOf h.numbered hlookup]
  · rintro ⟨s, ⟨hs, hne, hnone⟩, hn⟩
    obtain ⟨i, rfl⟩ := h.numbered.alias hn
    have hb := builtin?_eq_none (isReserved_alias i)
    have htext := lookup_text h hs
    rw [hn] at htext
    refine ⟨⟨(Term.mem_names hb).2 ⟨s, hs, Option.some.inj htext⟩, hb⟩, ?_, ?_⟩
    · -- two symbols with one alias would be the same symbol
      rintro rfl
      exact hne (h.numbered.lookup_injective hn hx)
    · rwa [lookup_scopeOf h.numbered hn]

/-- What the formula of two terms is compiled to. -/
lemma exists_aliased (hu : Written Symbol.text (l.lexemes 0) u) (hv : Written Symbol.text (r.lexemes 0) v) :
    ∃ text a, residual (u ++ '=' :: v) = .ok text ∧ (aliased text).2 = a ∧
      Names [] (l.difference r).symbols a ∧ Expression.compile (aliased text).1 =
        if l.nesting 0 0 < Token.maxNesting ∧ r.nesting 0 0 < Token.maxNesting then
          .ok ((l.difference r).expression a.text)
        else .error .malformed := by
  have htext := residual_written hu hv adhering_text (l.formed 0).ne_nil (r.formed 0).ne_nil
  obtain ⟨a, ha, hnames, hcompile⟩ := compile_difference (hu.trim adhering_text) (hv.trim adhering_text)
    (l.formed 0).fits (r.formed 0).fits (l.nested 0) (r.nested 0)
  rw [Term.symbols_lexemes, Term.symbols_lexemes] at hnames
  rw [Term.compileTokens_difference] at hcompile
  exact ⟨_, a, htext, ha, hnames, hcompile⟩

/-- The values of names: the unknown at a point, and all others as they are bound. -/
def assignment (bindings : List (String × Float)) (unknown : String) (x : Float) (n : String) : Float :=
  if n = unknown then x else (bindings.lookup n).getD (0.0 / 0.0)

/-- A residual after it has been evaluated at some points: the last one stays in its scope. -/
def after (r : Residual) (earlier : List Float) : Residual :=
  { r with scope := earlier.foldl (fun scope x => Table.put r.unknown x scope) r.scope }

/-- The value at a point does not depend on the points before. -/
theorem valueAt_after (r : Residual) (earlier : List Float) (x : Float) :
    (r.after earlier).valueAt x = r.valueAt x := by
  have hscope : ∀ scope : Expression.Scope, ∀ n, n ≠ r.unknown →
      (earlier.foldl (fun scope x => Table.put r.unknown x scope) scope).lookup n = scope.lookup n := by
    intro scope n hn
    induction earlier generalizing scope with
    | nil => rfl
    | cons y earlier ih =>
      rw [List.foldl_cons, ih]
      exact (Table.get?_put scope r.unknown y n).trans (if_neg hn)
  refine Expression.value_congr (fun n => ?_) r.expression
  by_cases hn : n = r.unknown
  · simp [after, hn]
  · simp [after, List.lookup_cons, beq_eq_false_iff_ne.2 hn, hscope r.scope n hn]

/-- A term has its value where its symbols are bound under their aliases. -/
lemma value_term (h : Names [] t.symbols a) (hx : a.lookup unknown = some x)
    (hbound : ∀ s, ¬ Unbound t bindings unknown s) (y : Float) :
    (t.expression a.text).value ((x, y) :: scopeOf a bindings) =
      .ok (t.outcome (assignment bindings unknown y)) := by
  refine Term.value_expression (fun s hs => ?_) fun n hn => ?_
  · have hlookup := lookup_text h hs
    by_cases hs' : s.name = unknown
    · rw [hs', hx] at hlookup
      obtain rfl := Option.some.inj hlookup
      simp [assignment, hs']
    · have hne : String.ofList (a.text s) ≠ x := by
        rintro rfl
        exact hs' (h.numbered.lookup_injective hlookup hx)
      have hsome : (bindings.lookup s.name).isSome :=
        Option.isSome_iff_ne_none.2 fun hnone => hbound s ⟨hs, hs', hnone⟩
      rw [List.lookup_cons, beq_eq_false_iff_ne.2 hne, lookup_scopeOf h.numbered hlookup, assignment,
        if_neg hs']
      obtain ⟨w, hw⟩ := Option.isSome_iff_exists.1 hsome
      rw [hw]
      rfl
  · obtain ⟨i, rfl⟩ := h.numbered.alias hx
    have hne : n ≠ "_s" ++ toString i := by
      rintro rfl
      rw [isReserved_alias] at hn
      cases hn
    rw [List.lookup_cons, beq_eq_false_iff_ne.2 hne]
    exact lookup_scopeOf_eq_none h.numbered hn

variable (hu : Written Symbol.text (l.lexemes 0) u) (hv : Written Symbol.text (r.lexemes 0) v)
include hu hv

/-- A formula without the unknown has no residual, and is not compiled. -/
lemma buildWithin_absent {givesUp : List Char → Bool}
    (hx : unknown ∉ (l.difference r).symbols.map Symbol.name) :
    buildWithin givesUp (String.ofList (u ++ '=' :: v)) bindings unknown =
      some (.error .absentUnknown) := by
  obtain ⟨text, a, htext, ha, hnames, -⟩ := exists_aliased hu hv
  have hnone : a.lookup unknown = none := by
    rw [← Option.not_isSome_iff_eq_none, hnames.isSome_lookup]
    rintro (h | ⟨s, hs, rfl⟩)
    · cases h
    · exact hx (List.mem_map_of_mem hs)
  rw [← String.toList_ofList (l := u ++ '=' :: v)] at htext
  rw [buildWithin_of_absent htext (ha ▸ hnone), build, htext]
  simp only [pure_bind, ha, hnone]
  rfl

/-- A formula whose parentheses are nested too deeply has no residual. -/
lemma build_malformed (hx : unknown ∈ (l.difference r).symbols.map Symbol.name)
    (hdeep : ¬ (l.nesting 0 0 < Token.maxNesting ∧ r.nesting 0 0 < Token.maxNesting)) :
    build (String.ofList (u ++ '=' :: v)) bindings unknown = .error .malformed := by
  obtain ⟨text, a, htext, ha, hnames, hcompile⟩ := exists_aliased hu hv
  obtain ⟨x, hx⟩ := exists_alias hnames hx
  rw [if_neg hdeep] at hcompile
  rw [build, String.toList_ofList, htext]
  simp only [pure_bind, ha, hx, hcompile]
  rfl

/-- What is built of a formula whose parentheses are not nested too deeply. -/
lemma build_shallow (bindings : List (String × Float))
    (hx : unknown ∈ (l.difference r).symbols.map Symbol.name)
    (hl : l.nesting 0 0 < Token.maxNesting) (hr : r.nesting 0 0 < Token.maxNesting) :
    ∃ a x, Names [] (l.difference r).symbols a ∧ a.lookup unknown = some x ∧
      build (String.ofList (u ++ '=' :: v)) bindings unknown =
        let e := (l.difference r).expression a.text
        if (unboundOf e x (scopeOf a bindings)).isEmpty then .ok ⟨e, x, scopeOf a bindings⟩
        else .error (.unbound (((unboundOf e x (scopeOf a bindings)).map fun n =>
          (a.symbolOf? n).getD n).mergeSort fun a b => a ≤ b)) := by
  obtain ⟨text, a, htext, ha, hnames, hcompile⟩ := exists_aliased hu hv
  obtain ⟨x, hx⟩ := exists_alias hnames hx
  rw [if_pos ⟨hl, hr⟩] at hcompile
  rw [← String.toList_ofList (l := u ++ '=' :: v)] at htext
  exact ⟨a, x, hnames, hx, build_of_compiled htext ha hx hcompile⟩

/-- The names without a value are told. -/
lemma build_unbound (hx : unknown ∈ (l.difference r).symbols.map Symbol.name)
    (hl : l.nesting 0 0 < Token.maxNesting) (hr : r.nesting 0 0 < Token.maxNesting)
    (hunbound : ∃ s, Unbound (l.difference r) bindings unknown s) :
    ∃ names, build (String.ofList (u ++ '=' :: v)) bindings unknown = .error (.unbound names) ∧
      ∀ n, n ∈ names ↔ ∃ s, Unbound (l.difference r) bindings unknown s ∧ s.name = n := by
  obtain ⟨a, x, hnames, hx, hbuild⟩ := build_shallow hu hv bindings hx hl hr
  have hmem {n : String} : n ∈ unboundOf ((l.difference r).expression a.text) x (scopeOf a bindings) ↔ _ :=
    mem_unboundOf hnames hx
  obtain ⟨s, hs⟩ := hunbound
  have hne : ¬ (unboundOf ((l.difference r).expression a.text) x (scopeOf a bindings)).isEmpty := by
    rw [List.isEmpty_iff]
    exact List.ne_nil_of_mem (hmem.2 ⟨s, hs, lookup_text hnames hs.1⟩)
  refine ⟨_, hbuild.trans (if_neg hne), fun n => ?_⟩
  rw [(List.mergeSort_perm _ _).mem_iff, List.mem_map]
  constructor
  · rintro ⟨y, hy, rfl⟩
    obtain ⟨s, hs, hlookup⟩ := hmem.1 hy
    exact ⟨s, hs, by rw [hnames.numbered.symbolOf?_of_lookup hlookup, Option.getD_some]⟩
  · rintro ⟨s, hs, rfl⟩
    have hlookup := lookup_text hnames hs.1
    exact ⟨_, hmem.2 ⟨s, hs, hlookup⟩, by rw [hnames.numbered.symbolOf?_of_lookup hlookup, Option.getD_some]⟩

/-- A residual has the value of the difference of the terms. -/
lemma build_bound (hx : unknown ∈ (l.difference r).symbols.map Symbol.name)
    (hl : l.nesting 0 0 < Token.maxNesting) (hr : r.nesting 0 0 < Token.maxNesting)
    (hbound : ∀ s, ¬ Unbound (l.difference r) bindings unknown s) :
    ∃ residual, build (String.ofList (u ++ '=' :: v)) bindings unknown = .ok residual ∧
      ∀ x, residual.valueAt x = .ok ((l.difference r).outcome (assignment bindings unknown x)) := by
  obtain ⟨a, x, hnames, hx, hbuild⟩ := build_shallow hu hv bindings hx hl hr
  have hnil : (unboundOf ((l.difference r).expression a.text) x (scopeOf a bindings)).isEmpty := by
    rw [List.isEmpty_iff, List.eq_nil_iff_forall_not_mem]
    intro n hn
    obtain ⟨s, hs, -⟩ := (mem_unboundOf hnames hx).1 hn
    exact hbound s hs
  exact ⟨_, hbuild.trans (if_pos hnil), fun y => value_term hnames hx hbound y⟩

omit hu hv

/--
The residual of the formula of two terms, compiled by a compiler that may give up on some texts. There
is none if the unknown is no symbol of the terms. Otherwise the text of the formula is compiled, and
unless the compiler gives up on it there is a residual if the parentheses are not nested too deeply and
all other symbols are bound; and then its value at a point is that of the difference of the terms,
whatever it has been evaluated at before.
-/
theorem build_formula (givesUp : List Char → Bool) (l r : Term) {u v : List Char}
    (hu : Written Symbol.text (l.lexemes 0) u) (hv : Written Symbol.text (r.lexemes 0) v)
    (bindings : List (String × Float)) (unknown : String) :
    let formula := String.ofList (u ++ '=' :: v)
    let difference := l.difference r
    let built := buildWithin givesUp formula bindings unknown
    (unknown ∉ difference.symbols.map Symbol.name → built = some (.error .absentUnknown)) ∧
    (unknown ∈ difference.symbols.map Symbol.name →
      ∃ text, residual (u ++ '=' :: v) = .ok text ∧
        (givesUp (withPowerSigns (aliased text).1) = false →
          (¬ (l.nesting 0 0 < Token.maxNesting ∧ r.nesting 0 0 < Token.maxNesting) →
            built = some (.error .malformed)) ∧
          (l.nesting 0 0 < Token.maxNesting → r.nesting 0 0 < Token.maxNesting →
            ((∃ s, Unbound difference bindings unknown s) →
              ∃ names, built = some (.error (.unbound names)) ∧
                ∀ n, n ∈ names ↔ ∃ s, Unbound difference bindings unknown s ∧ s.name = n) ∧
            ((∀ s, ¬ Unbound difference bindings unknown s) →
              ∃ residual, built = some (.ok residual) ∧
                ∀ earlier x, (residual.after earlier).valueAt x =
                  .ok (difference.outcome (assignment bindings unknown x)))))) := by
  intro formula difference built
  have htext : residual formula.toList = .ok (differenceText (trim u) (trim v)) := by
    rw [String.toList_ofList]
    exact residual_written hu hv adhering_text (l.formed 0).ne_nil (r.formed 0).ne_nil
  refine ⟨fun hx => ?_, fun hx => ⟨_, String.toList_ofList ▸ htext, fun hgiven => ?_⟩⟩
  · exact buildWithin_absent hu hv hx
  · have hbuilt : built = some (build formula bindings unknown) := buildWithin_of_compiled htext hgiven
    rw [hbuilt]
    refine ⟨fun hdeep => congrArg some (build_malformed hu hv hx hdeep), fun hl hr => ⟨?_, ?_⟩⟩
    · intro hunbound
      obtain ⟨names, hbuild, hnames⟩ := build_unbound hu hv hx hl hr hunbound
      exact ⟨names, congrArg some hbuild, hnames⟩
    · intro hbound
      obtain ⟨residual, hbuild, hvalue⟩ := build_bound hu hv hx hl hr hbound
      exact ⟨residual, congrArg some hbuild,
        fun earlier x => (valueAt_after residual earlier x).trans (hvalue x)⟩

/--
In `y'=2*if^2` a symbol is primed and another one is a word of the expression language. The compiler
gives up on texts of a thousand signs, which this is not.
-/
theorem build_formula_keyword :
    ∃ l r : Term, String.ofList (l.text ++ '=' :: r.text) = "y'=2*if^2" ∧
      ∃ residual, buildWithin (1000 ≤ ·.length) "y'=2*if^2" [("if", 3.0), ("x", 1.0)] "y'" =
          some (.ok residual) ∧
        ∀ earlier x, (residual.after earlier).valueAt x = .ok ((l.difference r).outcome
          (assignment [("if", 3.0), ("x", 1.0)] "y'" x)) := by
  let y : Symbol := ⟨"y'", by decide, by decide⟩
  let i : Symbol := ⟨"if", by decide, by decide⟩
  let two : Term := .numeral ⟨"2".toList, .integer 2, by decide⟩
  let l : Term := .symbol y
  let r : Term := .binary .times two (.binary .power (.symbol i) two)
  have htext : String.ofList (l.text ++ '=' :: r.text) = "y'=2*if^2" := by decide
  have hchars : l.text ++ '=' :: r.text = "y'=2*if^2".toList := by decide
  have hformula := build_formula (1000 ≤ ·.length) l r (.of_lexemes _) (.of_lexemes _)
    [("if", 3.0), ("x", 1.0)] "y'"
  have hbound : ∀ s, ¬ Unbound (l.difference r) [("if", 3.0), ("x", 1.0)] "y'" s := by
    rintro s ⟨hs, hne, hnone⟩
    obtain rfl | rfl : s = y ∨ s = i := by
      simpa [Term.difference, Term.symbols, l, r, two] using hs
    · exact hne rfl
    · cases hnone
  obtain ⟨text, hresidual, hcompiled⟩ := hformula.2 (by decide)
  obtain rfl : "(y') - (2*if^2)".toList = text := by
    have hsides : Formula.residual (l.text ++ '=' :: r.text) = .ok "(y') - (2*if^2)".toList := by
      rw [hchars]
      rfl
    exact Except.ok.inj (hsides.symm.trans hresidual)
  have hgiven : decide (1000 ≤ (withPowerSigns (aliased "(y') - (2*if^2)".toList).1).length) =
      false := by
    rw [Formula.aliased_eq]
    decide +kernel
  obtain ⟨residual, hbuild, hvalue⟩ := ((hcompiled hgiven).2 (by decide) (by decide)).2 hbound
  exact ⟨l, r, htext, residual, htext ▸ hbuild, hvalue⟩

/-- Two hundred pairs of parentheses are too many, whatever is bound. -/
theorem build_formula_nested : ∃ l r : Term,
    String.ofList (l.text ++ '=' :: r.text) = String.ofList (List.replicate 200 '(' ++ 'x' ::
      List.replicate 200 ')' ++ "=1".toList) ∧
    "x" ∈ (l.difference r).symbols.map Symbol.name ∧
    (∀ s, ¬ Unbound (l.difference r) [] "x" s) ∧
    build (String.ofList (l.text ++ '=' :: r.text)) [] "x" = .error .malformed := by
  let x : Symbol := ⟨"x", by decide, by decide⟩
  let l : Term := Term.group^[200] (.symbol x)
  let r : Term := .numeral ⟨"1".toList, .integer 1, by decide⟩
  have hsymbols : (l.difference r).symbols = [x] := rfl
  refine ⟨l, r, ?_, ?_, ?_, ?_⟩
  · decide +kernel
  · rw [hsymbols]
    decide
  · rintro s ⟨hs, hne, -⟩
    rw [hsymbols, List.mem_singleton] at hs
    exact hne (hs ▸ rfl)
  · refine build_malformed (.of_lexemes _) (.of_lexemes _) ?_ ?_
    · rw [hsymbols]
      decide
    · decide +kernel

end

end Numeric.Residual
end Formulary
