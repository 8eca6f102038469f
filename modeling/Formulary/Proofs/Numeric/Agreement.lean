import Formulary.Proofs.Formula.Insertion
import Formulary.Proofs.Numeric.Equation

/-!
# Values in the text and values in the scope

The values of symbols can be written into the text of a residual, or bound in the scope in which the
residual is evaluated. Both give the same value (`value_substituted`), except that the parentheses
around the values that are written may nest too deeply: what is nested one level less is still read
with values in the scope. This holds for the texts on which the compiler does not give up.
-/

namespace Formulary.Numeric.Residual

open Formula Number Text

variable {l r t : Term} {u v : List Char} {bindings values : List (String × Float)} {unknown : String}
  {x : Float} {w : Float → Term}

/-- What is asked of a name and its value: a symbol, and a finite number whose text reads back. -/
structure Readable (b : String × Float) : Prop where
  isSymbol : isSymbol b.1.toList
  unreserved : isReserved b.1 = false
  finite : b.2.isFinite
  reads : readFloat? (shortestText b.2) = some b.2

/-- Readable values have terms. -/
lemma exists_writable (h : ∀ b ∈ values, Readable b) : ∃ w, ∀ b ∈ values, Writable w b := by
  -- A value may be bound to several names; it has one term all the same.
  classical
  have hterm : ∀ y : Float, ∃ t, (∃ b ∈ values, b.2 = y) → Denotes y t := by
    intro y
    by_cases hy : ∃ b ∈ values, b.2 = y
    · obtain ⟨b, hb, rfl⟩ := hy
      obtain ⟨t, ht⟩ := exists_denotes (h b hb).finite (h b hb).reads
      exact ⟨t, fun _ => ht⟩
    · exact ⟨.constant .pi, fun h => absurd h hy⟩
  choose w hw using hterm
  exact ⟨w, fun b hb => ⟨(h b hb).isSymbol, (h b hb).unreserved, hw b.2 ⟨b, hb, rfl⟩⟩⟩

/-- What the difference of two sides is compiled to once values are written into it. -/
lemma compile_substituted (hw : ∀ b ∈ values, Writable w b)
    (hu : Written Symbol.text (l.lexemes 0) u) (hv : Written Symbol.text (r.lexemes 0) v)
    (hl : Numeric (l.lexemes 0)) (hr : Numeric (r.lexemes 0)) :
    let env := valued w (longestFirst values)
    ∃ a, Expression.compile (aliased (substituteAll (differenceText u v) values)).1 =
      if (l.subst env).nesting 0 0 < Token.maxNesting ∧ (r.subst env).nesting 0 0 < Token.maxNesting then
        .ok (((l.difference r).subst env).expression a)
      else .error .malformed := by
  intro env
  have hw' : ∀ b ∈ longestFirst values, Writable w b := fun b hb => hw b (List.mem_mergeSort.1 hb)
  have htext : substituteAll (differenceText u v) values = _ :=
    foldl_difference fun b hb => (hw' b hb).isSymbol
  obtain ⟨a, -, -, hcompile⟩ := compile_difference (Term.written_foldl hw' hu hl)
    (Term.written_foldl hw' hv hr) ((l.subst env).formed 0).fits ((r.subst env).formed 0).fits
    ((l.subst env).nested 0) ((r.subst env).nested 0)
  rw [Term.compileTokens_difference] at hcompile
  rw [htext]
  exact ⟨a.text, hcompile⟩

/-- All symbols have the values that are written or bound. -/
lemma lookup_values (hnodup : (((unknown, x) :: bindings).map (·.1)).Nodup)
    (hperm : values.Perm ((unknown, x) :: bindings)) (hbound : ∀ s, ¬ Unbound t bindings unknown s)
    {s : Symbol} (hs : s ∈ t.symbols) :
    (longestFirst values).lookup s.name = some (assignment bindings unknown x s.name) := by
  have hperm' : (longestFirst values).Perm ((unknown, x) :: bindings) :=
    (List.mergeSort_perm _ _).trans hperm
  rw [← lookup_perm hnodup hperm'.symm, List.lookup_cons, assignment]
  by_cases hname : s.name = unknown
  · simp [hname]
  · have hsome : (bindings.lookup s.name).isSome :=
      Option.isSome_iff_ne_none.2 fun hnone => hbound s ⟨hs, hname, hnone⟩
    obtain ⟨y, hy⟩ := Option.isSome_iff_exists.1 hsome
    simp [hname, beq_eq_false_iff_ne.2 hname, hy]

section
variable (hu : Written Symbol.text (l.lexemes 0) u) (hv : Written Symbol.text (r.lexemes 0) v)
  (hpoint : NoLetterBehindPoint (u ++ '=' :: v))
  (hbound : ∀ s, ¬ Unbound (l.difference r) bindings unknown s)
  (hnodup : (((unknown, x) :: bindings).map (·.1)).Nodup)
  (hreadable : ∀ b ∈ (unknown, x) :: bindings, Readable b)
  (hperm : values.Perm ((unknown, x) :: bindings))
include hu hv hpoint hbound hnodup hreadable hperm

/--
A formula with all values written into it is compiled to an expression that needs no scope, unless
its parentheses are nested too deeply.
-/
lemma compile_values : ∃ text e, residual (u ++ '=' :: v) = .ok text ∧
    Expression.compile (aliased (substituteAll text values)).1 =
      (if l.nesting 1 0 < Token.maxNesting ∧ r.nesting 1 0 < Token.maxNesting then .ok e
        else .error .malformed) ∧
    e.value [] = .ok ((l.difference r).outcome (assignment bindings unknown x)) := by
  have htext := residual_written hu hv adhering_text (l.formed 0).ne_nil (r.formed 0).ne_nil
  have hl : Numeric (l.lexemes 0) := hu.numeric (List.IsChain.left_of_append hpoint)
  have hr : Numeric (r.lexemes 0) := hv.numeric (List.IsChain.tail (List.IsChain.right_of_append hpoint))
  obtain ⟨w, hw⟩ := exists_writable fun b hb => hreadable b (hperm.mem_iff.1 hb)
  obtain ⟨a, hcompile⟩ := compile_substituted hw (hu.trim adhering_text) (hv.trim adhering_text) hl hr
  have hterm : ∀ s ∈ (l.difference r).symbols, ∃ t, valued w (longestFirst values) s.name = some t ∧
      Denotes (assignment bindings unknown x s.name) t := by
    intro s hs
    have hlookup := lookup_values hnodup hperm hbound hs
    refine ⟨_, by rw [valued, hlookup, Option.map_some], ?_⟩
    exact (hw (s.name, _) (List.mem_mergeSort.1 (mem_of_lookup hlookup))).denotes
  -- A value stands in parentheses of its own, so a symbol counts as nested one level deep.
  have hnesting : ∀ {t : Term}, (∀ s ∈ t.symbols, s ∈ (l.difference r).symbols) →
      (t.subst (valued w (longestFirst values))).nesting 0 0 = t.nesting 1 0 := fun h =>
    Term.nesting_subst (fun s hs => (hterm s (h s hs)).imp fun _ ht => ⟨ht.1, ht.2.nesting⟩) 0
  rw [hnesting (t := l) (fun s hs => List.mem_append_left _ hs),
    hnesting (t := r) (fun s hs => List.mem_append_right _ hs)] at hcompile
  have hsymbols : ((l.difference r).subst (valued w (longestFirst values))).symbols = [] :=
    Term.symbols_subst fun s hs => (hterm s hs).imp fun _ ht => ⟨ht.1, ht.2.symbols⟩
  have hvalue : (((l.difference r).subst (valued w (longestFirst values))).expression a).value [] =
      .ok (((l.difference r).subst (valued w (longestFirst values))).outcome
        (assignment bindings unknown x)) :=
    Term.value_expression (by simp [hsymbols]) fun _ _ => rfl
  rw [Term.outcome_subst fun s hs => (hterm s hs).imp fun _ ht => ⟨ht.1, ht.2.value _⟩] at hvalue
  exact ⟨_, _, htext, hcompile, hvalue⟩

/--
A formula with all values written into it, the unknown at a point among them, has the value of the
residual at this point, unless the parentheses of a side are nested too deeply once each symbol of it
stands in parentheses. The compiler must not give up on the texts that it is given.
-/
theorem value_substituted (givesUp : List Char → Bool)
    (hunknown : unknown ∈ (l.difference r).symbols.map Symbol.name) :
    ∃ text, residual (u ++ '=' :: v) = .ok text ∧
      let substituted := (aliased (substituteAll text values)).1
      (givesUp (withPowerSigns substituted) = false →
        (l.nesting 1 0 < Token.maxNesting ∧ r.nesting 1 0 < Token.maxNesting →
          givesUp (withPowerSigns (aliased text).1) = false →
            ∃ e residual y, Expression.compileWithin givesUp substituted = some (.ok e) ∧
              buildWithin givesUp (String.ofList (u ++ '=' :: v)) bindings unknown =
                some (.ok residual) ∧
              e.value [] = .ok y ∧ residual.valueAt x = .ok y) ∧
        (¬ (l.nesting 1 0 < Token.maxNesting ∧ r.nesting 1 0 < Token.maxNesting) →
          Expression.compileWithin givesUp substituted = some (.error .malformed))) := by
  obtain ⟨text, e, htext, hcompile, hvalue⟩ :=
    compile_values hu hv hpoint hbound hnodup hreadable hperm
  refine ⟨text, htext, fun hgiven => ?_⟩
  rw [Expression.compileWithin_eq_some hgiven, hcompile]
  refine ⟨fun hshallow hformula => ?_, fun hdeep => by rw [if_neg hdeep]⟩
  obtain ⟨residual, hbuild, hresidual⟩ := build_bound hu hv hunknown
    (Nat.lt_of_le_of_lt (l.nesting_mono 0) hshallow.1)
    (Nat.lt_of_le_of_lt (r.nesting_mono 0) hshallow.2) hbound
  rw [← String.toList_ofList (l := u ++ '=' :: v)] at htext
  rw [buildWithin_of_compiled htext hformula, hbuild, if_pos hshallow]
  exact ⟨e, residual, _, rfl, rfl, hvalue, hresidual x⟩

end

/--
In `y'=2*if^2` a negative value is squared. The compiler gives up on texts of a thousand signs, which
these are not.
-/
theorem value_substituted_keyword : ∃ text e residual y,
    Formula.residual "y'=2*if^2".toList = .ok text ∧
    Expression.compileWithin (1000 ≤ ·.length)
      (aliased (substituteAll text [("if", -1.5), ("y'", 5.0)])).1 = some (.ok e) ∧
    buildWithin (1000 ≤ ·.length) "y'=2*if^2" [("if", -1.5)] "y'" = some (.ok residual) ∧
    e.value [] = .ok y ∧ residual.valueAt 5.0 = .ok y := by
  let y : Symbol := ⟨"y'", by decide, by decide⟩
  let i : Symbol := ⟨"if", by decide, by decide⟩
  let two : Term := .numeral ⟨"2".toList, .integer 2, by decide⟩
  let l : Term := .symbol y
  let r : Term := .binary .times two (.binary .power (.symbol i) two)
  have htext : l.text ++ '=' :: r.text = "y'=2*if^2".toList := by decide
  have hbound : ∀ s, ¬ Unbound (l.difference r) [("if", -1.5)] "y'" s := by
    rintro s ⟨hs, hne, hnone⟩
    obtain rfl | rfl : s = y ∨ s = i := by
      simpa [Term.difference, Term.symbols, l, r, two] using hs
    · exact hne rfl
    · cases hnone
  have hreadable : ∀ b ∈ [("y'", (5.0 : Float)), ("if", -1.5)], Readable b := by
    intro b hb
    simp only [List.mem_cons, List.not_mem_nil, or_false] at hb
    obtain rfl | rfl := hb
    · exact ⟨by decide, by decide, by decide +kernel, by decide +kernel⟩
    · exact ⟨by decide, by decide, by decide +kernel, by decide +kernel⟩
  have hpoint : NoLetterBehindPoint (l.text ++ '=' :: r.text) := by
    rw [htext]
    unfold NoLetterBehindPoint
    decide
  obtain ⟨text, hresidual, hagree⟩ := value_substituted (l := l) (r := r) (.of_lexemes _)
    (.of_lexemes _) hpoint hbound (by decide) hreadable (.swap _ _ []) (1000 ≤ ·.length) (by decide)
  obtain rfl : "(y') - (2*if^2)".toList = text := by
    have hsides : Formula.residual (l.text ++ '=' :: r.text) = .ok "(y') - (2*if^2)".toList := by
      rw [htext]
      rfl
    exact Except.ok.inj (hsides.symm.trans hresidual)
  have hgiven : decide (1000 ≤ (withPowerSigns (aliased (substituteAll "(y') - (2*if^2)".toList
      [("if", -1.5), ("y'", 5.0)])).1).length) = false := by
    have hsorted : longestFirst [("if", -1.5), ("y'", 5.0)] = [("if", -1.5), ("y'", 5.0)] :=
      List.mergeSort_of_pairwise (by decide)
    rw [Formula.aliased_eq, substituteAll, hsorted]
    decide +kernel
  have hformula : decide (1000 ≤ (withPowerSigns (aliased "(y') - (2*if^2)".toList).1).length) =
      false := by
    rw [Formula.aliased_eq]
    decide +kernel
  obtain ⟨e, residual, z, hcompile, hbuild, hvalue⟩ := (hagree hgiven).1 (by decide) hformula
  refine ⟨_, e, residual, z, ?_, hcompile, ?_, hvalue⟩
  · rw [← htext]
    exact hresidual
  · rw [← String.ofList_toList (s := "y'=2*if^2"), ← htext]
    exact hbuild

/-- With 199 pairs of parentheses around a symbol there is no room for those around its value. -/
theorem value_substituted_nested : ∃ l r : Term, ∃ text residual,
    String.ofList (l.text ++ '=' :: r.text) = String.ofList (List.replicate 199 '(' ++ 'x' ::
      List.replicate 199 ')' ++ "=1".toList) ∧
    Formula.residual (l.text ++ '=' :: r.text) = .ok text ∧
    build (String.ofList (l.text ++ '=' :: r.text)) [] "x" = .ok residual ∧
    Expression.compile (aliased (substituteAll text [("x", 3.0)])).1 = .error .malformed := by
  let x : Symbol := ⟨"x", by decide, by decide⟩
  let l : Term := Term.group^[199] (.symbol x)
  let r : Term := .numeral ⟨"1".toList, .integer 1, by decide⟩
  have hsymbols : (l.difference r).symbols = [x] := rfl
  have hbound : ∀ s, ¬ Unbound (l.difference r) [] "x" s := by
    rintro s ⟨hs, hne, -⟩
    rw [hsymbols, List.mem_singleton] at hs
    exact hne (hs ▸ rfl)
  have hreadable : ∀ b ∈ [("x", (3.0 : Float))], Readable b := by
    intro b hb
    obtain rfl := List.mem_singleton.1 hb
    exact ⟨by decide, by decide, by decide +kernel, by decide +kernel⟩
  have hpoint : NoLetterBehindPoint (l.text ++ '=' :: r.text) := by
    unfold NoLetterBehindPoint
    decide +kernel
  obtain ⟨text, e, htext, hcompile, -⟩ := compile_values (l := l) (r := r) (.of_lexemes _)
    (.of_lexemes _) hpoint hbound (by decide) hreadable (.refl _)
  obtain ⟨residual, hbuild, -⟩ := build_bound (l := l) (r := r) (.of_lexemes _) (.of_lexemes _)
    (by rw [hsymbols]; decide) (by decide +kernel) (by decide +kernel) hbound
  exact ⟨l, r, text, residual, by decide +kernel, htext, hbuild,
    hcompile.trans (if_neg (by decide +kernel))⟩

end Formulary.Numeric.Residual
